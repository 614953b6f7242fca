import DiStore.Cluster.Accesses
import DiStore.Memory.ClusterSegments
import DiStore.RDMAUtil.Handshake

/-!
Contract: the contexts through which the threads of a compute node reach the memory nodes.

Owns: `setup_rdma_per_thread` beside the threads of the memory nodes that answer it, `get_rdma` and
`get_parallel_rdma`, and that a request for a byte of a chunk goes to the memory node that granted it.

Does not own: the eRPC and TCP connections. A memory node may answer its sockets in any order.

## Two numbers for one node

Contexts are listed in the order of the configuration and found by the number in a pointer, which is
the one in the configuration of the memory node itself. The two have to agree, as they do in the
example that the source gives: `node0`, `node1`, `node2`.
-/

set_option autoImplicit false

namespace DiStore.Cluster

open DiStore.Concurrency DiStore.Memory DiStore.RDMAUtil

/-- The sockets of the threads of a compute node, in the order in which they were made. Each thread
makes two for each memory node: one for `rdma` and one for `parallel_rdma`. -/
structure BringUp where
  links : ThreadId → List Link

namespace BringUp

/-- Nothing is left to do with the last socket: `default_connect` has returned zero. -/
def LastDone (links : List Link) : Prop :=
  ∀ last ∈ links.getLast?, (last.endpoint .computeNode).phase = .returned 0

instance decidableLastDone (links : List Link) : Decidable (LastDone links) := by
  unfold LastDone
  infer_instance

variable (up : BringUp)

def setLinks (thread : ThreadId) (links : List Link) : BringUp := ⟨Function.update up.links thread links⟩

@[simp] theorem links_setLinks (thread : ThreadId) (links : List Link) :
    (up.setLinks thread links).links thread = links := Function.update_self _ _ _

@[simp] theorem setLinks_setLinks (thread : ThreadId) (links others : List Link) :
    (up.setLinks thread links).setLinks thread others = up.setLinks thread others :=
  congrArg BringUp.mk (Function.update_idem _ _ _)

@[simp] theorem setLinks_links (thread : ThreadId) : up.setLinks thread (up.links thread) = up :=
  congrArg BringUp.mk (Function.update_eq_self thread up.links)

/-- The next step of a thread, or of either side of one of its sockets. `bases` has the base addresses
of the memory nodes in the order of the configuration. -/
inductive Step (bases : List (BitVec 64)) : BringUp → BringUp → Prop where
  | connect {up : BringUp} (thread : ThreadId) (more : (up.links thread).length < 2 * bases.length)
      (lastDone : LastDone (up.links thread)) :
      Step bases up (up.setLinks thread (up.links thread ++ [.start]))
  | link {up : BringUp} (thread : ThreadId) (index : Nat) {link next : Link} {base : BitVec 64}
      (isLink : (up.links thread)[index]? = some link) (isBase : bases[index / 2]? = some base)
      (step : Link.Step base link next) :
      Step bases up (up.setLinks thread ((up.links thread).set index next))

/-- No thread has begun. -/
def start : BringUp := ⟨fun _ => []⟩

inductive Reached (bases : List (BitVec 64)) : BringUp → Prop where
  | start : Reached bases start
  | step {up next : BringUp} (before : Reached bases up) (step : Step bases up next) : Reached bases next

/-- The two contexts are inserted when the loop over the memory nodes is over. -/
def Registered (count : Nat) (thread : ThreadId) : Prop :=
  (up.links thread).length = 2 * count ∧ LastDone (up.links thread)

instance decidableRegistered (count : Nat) (thread : ThreadId) : Decidable (up.Registered count thread) := by
  unfold Registered
  infer_instance

/-- `rdma->second[node]` and `parallel_rdma->second[node]`, none before the thread is registered. -/
def contextAt (count : Nat) (thread : ThreadId) (index : Nat) : Option RDMAContext :=
  if up.Registered count thread then
    ((up.links thread)[index]?).map fun link => (link.endpoint .computeNode).context
  else none

/-- `get_rdma`. -/
def getRdma (count : Nat) (thread : ThreadId) (remote : TaggedPointer) : Option RDMAContext :=
  up.contextAt count thread (2 * remote.getNode)

/-- `get_parallel_rdma`. -/
def getParallelRdma (count : Nat) (thread : ThreadId) (remote : TaggedPointer) : Option RDMAContext :=
  up.contextAt count thread (2 * remote.getNode + 1)

/-- Where the contexts that operations name by list and index stand among the sockets of a thread. -/
def placeOf (context : RdmaContext) : Nat := 2 * context.index + if context.parallel then 1 else 0

/-- The contexts of `Cluster.Accesses` are these. -/
theorem contextAt_placeOf (count : Nat) (thread : ThreadId) (remote : RemotePointer) :
    up.contextAt count thread (placeOf (Cluster.getRdma remote)) =
        up.getRdma count thread (BitVec.ofNat 64 remote) ∧
      up.contextAt count thread (placeOf (Cluster.getParallelRdma remote)) =
        up.getParallelRdma count thread (BitVec.ofNat 64 remote) := ⟨rfl, rfl⟩

/-! ### The invariant -/

variable {up} {next : BringUp} {bases : List (BitVec 64)}

/-- Every socket is sound, and all but the last of a thread are connected. -/
structure Sound (bases : List (BitVec 64)) (links : List Link) : Prop where
  sockets : ∀ index link base, links[index]? = some link → bases[index / 2]? = some base → link.Sound base
  done : ∀ index link, links[index]? = some link → index + 1 < links.length →
    (link.endpoint .computeNode).phase = .returned 0

theorem Sound.connect {links : List Link} (sound : Sound bases links) (lastDone : LastDone links) :
    Sound bases (links ++ [.start]) where
  sockets index link base isLink isBase := by
    rcases Nat.lt_or_ge index links.length with old | new
    · rw [List.getElem?_append_left old] at isLink
      exact sound.sockets index link base isLink isBase
    · rw [List.getElem?_append_right new] at isLink
      have isStart := List.mem_singleton.mp (List.mem_of_getElem? isLink)
      rw [isStart]
      exact Link.sound_start
  done index link isLink inside := by
    rw [List.length_append, List.length_singleton] at inside
    have old : index < links.length := by omega
    rw [List.getElem?_append_left old] at isLink
    rcases Nat.lt_or_ge (index + 1) links.length with early | late
    · exact sound.done index link isLink early
    · apply lastDone
      have isLast : index = links.length - 1 := by omega
      rw [List.getLast?_eq_getElem?, ← isLast, isLink]
      rfl

theorem Sound.link {links : List Link} (sound : Sound bases links) {place : Nat} {link after : Link}
    {base : BitVec 64} (isLink : links[place]? = some link) (isBase : bases[place / 2]? = some base)
    (step : Link.Step base link after) : Sound bases (links.set place after) where
  sockets index found other isFound isOther := by
    by_cases isPlace : index = place
    · rw [isPlace, List.getElem?_set_self (List.getElem?_eq_some_iff.mp isLink).1] at isFound
      rw [isPlace, isBase] at isOther
      rw [← Option.some.inj isFound, ← Option.some.inj isOther]
      exact (sound.sockets place link base isLink isBase).step step
    · rw [List.getElem?_set_ne (Ne.symm isPlace)] at isFound
      exact sound.sockets index found other isFound isOther
  done index found isFound inside := by
    rw [List.length_set] at inside
    by_cases isPlace : index = place
    · rw [isPlace, List.getElem?_set_self (List.getElem?_eq_some_iff.mp isLink).1] at isFound
      rw [isPlace] at inside
      rw [← Option.some.inj isFound]
      exact step.stays_returned (sound.done place link isLink inside)
    · rw [List.getElem?_set_ne (Ne.symm isPlace)] at isFound
      exact sound.done index found isFound inside

theorem setLinks_cases {links : List Link} {thread other : ThreadId} {property : List Link → Prop}
    (holds : ∀ other, property (up.links other)) (new : property links) :
    property ((up.setLinks thread links).links other) := by
  change property (Function.update up.links thread links other)
  by_cases isThread : other = thread
  · rw [isThread, Function.update_self]
    exact new
  · rw [Function.update_of_ne isThread]
    exact holds other

theorem Reached.sound (reached : Reached bases up) : ∀ thread, Sound bases (up.links thread) := by
  induction reached with
  | start =>
    intro thread
    constructor
    · intro _ _ _ isLink
      cases isLink
    · intro _ _ isLink
      cases isLink
  | step _ step inductionHypothesis =>
    intro other
    cases step with
    | connect thread _ lastDone =>
      exact setLinks_cases inductionHypothesis ((inductionHypothesis thread).connect lastDone)
    | link thread index isLink isBase step =>
      exact setLinks_cases inductionHypothesis ((inductionHypothesis thread).link isLink isBase step)

/-- The steps of one socket, without any others between them. -/
theorem Reached.run (reached : Reached bases up) {thread : ThreadId} {index : Nat} {link after : Link}
    {base : BitVec 64} (isLink : (up.links thread)[index]? = some link) (isBase : bases[index / 2]? = some base)
    (run : Relation.ReflTransGen (Link.Step base) link after) :
    Reached bases (up.setLinks thread ((up.links thread).set index after)) := by
  induction run with
  | refl =>
    obtain ⟨inside, isElement⟩ := List.getElem?_eq_some_iff.mp isLink
    rw [← isElement, List.set_getElem_self, setLinks_links]
    exact reached
  | @tail middle after _ step inductionHypothesis =>
    have isMiddle : ((up.setLinks thread ((up.links thread).set index middle)).links thread)[index]? = some middle := by
      rw [links_setLinks, List.getElem?_set_self (List.getElem?_eq_some_iff.mp isLink).1]
    have stepped := inductionHypothesis.step (.link thread index isMiddle isBase step)
    rw [setLinks_setLinks, links_setLinks, List.set_set] at stepped
    exact stepped

/-- In the list of a registered thread every socket is connected. -/
theorem Sound.registered {links : List Link} (sound : Sound bases links) (lastDone : LastDone links)
    {index : Nat} {link : Link} (isLink : links[index]? = some link) :
    (link.endpoint .computeNode).phase = .returned 0 := by
  have inside := (List.getElem?_eq_some_iff.mp isLink).1
  rcases Nat.lt_or_ge (index + 1) links.length with early | late
  · exact sound.done index link isLink early
  · apply lastDone
    have isLast : index = links.length - 1 := by omega
    rw [List.getLast?_eq_getElem?, ← isLast, isLink]
    rfl

/-! ### Requests -/

/-- `write_to` and `fetch_as`: the request that is posted for a remote address. -/
def post (up : BringUp) (count : Nat) (thread : ThreadId) (remote : TaggedPointer) :
    Option RDMAContext.WorkRequest :=
  (up.getRdma count thread remote).map fun context => context.postAt remote.getAs

/-- The socket `index` of a thread reaches the memory node whose memory is at `base`: its context is
connected to the one that the memory node opened there, and back if the memory node got ready too. -/
def Reaches (up : BringUp) (thread : ThreadId) (index : Nat) (base : BitVec 64) (own : RDMAContext) : Prop :=
  ∃ link, (up.links thread)[index]? = some link ∧ own = (link.endpoint .computeNode).context ∧
    Link.Connected own (link.endpoint .memoryNode).context ∧
    (link.endpoint .memoryNode).context.localCertificate.addr = base ∧
    ((link.endpoint .memoryNode).phase = .returned 0 → Link.Connected (link.endpoint .memoryNode).context own)

theorem Reached.contextAt (reached : Reached bases up) {thread : ThreadId}
    (registered : up.Registered bases.length thread) {index : Nat} {base : BitVec 64}
    (isBase : bases[index / 2]? = some base) :
    ∃ own, up.contextAt bases.length thread index = some own ∧ up.Reaches thread index base own := by
  have sound := reached.sound thread
  have inBases := (List.getElem?_eq_some_iff.mp isBase).1
  have inside : index < (up.links thread).length := by
    rw [registered.1]
    omega
  obtain ⟨link, isLink⟩ : ∃ link, (up.links thread)[index]? = some link := ⟨_, List.getElem?_eq_getElem inside⟩
  have linkSound := sound.sockets index link base isLink isBase
  obtain ⟨connected, notSilent⟩ := linkSound.connected .computeNode (sound.registered registered.2 isLink)
  refine ⟨(link.endpoint .computeNode).context, ?_, link, isLink, rfl, connected, ?_, ?_⟩
  · unfold BringUp.contextAt
    rw [if_pos registered, isLink]
    rfl
  · exact linkSound.registered fun isAccepted => notSilent (Or.inl isAccepted)
  · exact fun isReturned => (linkSound.connected .memoryNode isReturned).1

/-- What the memory nodes register, in the order of the configuration: `base_addr`. -/
def baseAddresses (memoryNodes : List MemoryNode) : List (BitVec 64) :=
  memoryNodes.map fun node => BitVec.ofNat 64 (advertisedBase node.allocator.region)

/-- A pointer into a segment, taken apart. -/
theorem pointer_parts {node : MemoryNode} {no offset : Nat} (inRange : node.nodeId.toNat < 64)
    (inMap : no < node.allocator.bitmap.bytes * 8) (inSegment : offset < segmentSize) {address : Nat}
    (isAddress : address = (128 + node.nodeId.toNat) * 2 ^ 56 + (node.allocator.segmentAt no + offset)) :
    TaggedPointer.getNode (BitVec.ofNat 64 address) = node.nodeId.toNat ∧
      TaggedPointer.getAs (BitVec.ofNat 64 address) = BitVec.ofNat 64 (node.allocator.segmentAt no + offset) := by
  have below := MemoryNode.segmentAt_below inMap
  have isWord : address % 2 ^ 64 = address := by omega
  constructor
  · rw [TaggedPointer.toNat_getNode, BitVec.toNat_ofNat, isWord]
    omega
  · apply BitVec.eq_of_toNat_eq
    rw [TaggedPointer.toNat_getAs, BitVec.toNat_ofNat, BitVec.toNat_ofNat, isWord]
    omega

/-- Where the requests of a registered thread for a byte of a chunk go: to the memory node that
granted the segment the byte is in, and to its address there, through either context. -/
def RequestsArrive (cluster : SegmentCluster) (up : BringUp) (thread : ThreadId) (address : Nat) : Prop :=
  ∃ node no offset own parallel, cluster.memoryNodes[TaggedPointer.getNode (BitVec.ofNat 64 address)]? = some node ∧
    no < node.allocator.bitmap.bytes * 8 ∧ node.allocator.bitmap.isSet no = true ∧
    memoryPageSize ≤ offset ∧ offset < segmentSize ∧
    up.getRdma cluster.memoryNodes.length thread (BitVec.ofNat 64 address) = some own ∧
    up.Reaches thread (2 * node.nodeId.toNat) (BitVec.ofNat 64 (advertisedBase node.allocator.region)) own ∧
    up.getParallelRdma cluster.memoryNodes.length thread (BitVec.ofNat 64 address) = some parallel ∧
    up.Reaches thread (2 * node.nodeId.toNat + 1) (BitVec.ofNat 64 (advertisedBase node.allocator.region)) parallel ∧
    up.post cluster.memoryNodes.length thread (BitVec.ofNat 64 address) =
      some ⟨BitVec.ofNat 64 (node.allocator.segmentAt no + offset), own.remote.rkey⟩

/-- The memory of the memory node of `SegmentCluster.twoAllocated`. -/
def nodeBase : BitVec 64 := BitVec.ofNat 64 (advertisedBase (2 ^ 46))

/-- Both sides of a new socket have opened their contexts and written their certificates. -/
def bothWritten : Link :=
  let opened := (Link.start.setEndpoint .computeNode ⟨.opened, .opened ⟨4096, 7, 1, 1, .fill 1⟩ 0⟩).setEndpoint
    .memoryNode ⟨.opened, .opened ⟨nodeBase, 9, 2, 2, .fill 2⟩ 0⟩
  (opened.write .computeNode certificateSize).write .memoryNode certificateSize

/-- A side reads the certificate, all of it, and gets its queue pair ready. -/
def finish (link : Link) (role : Role) : Link := (link.read role (link.incoming role) []).ready role 0 0 0

/-- The memory node has tried to read before anything came. -/
def tooEarly : Link := bothWritten.read .memoryNode [] (bothWritten.incoming .memoryNode)

/-- Of the two sockets of a thread, the first finds the memory node too early. -/
def halfOpen : BringUp :=
  (((start.setLinks 0 [.start]).setLinks 0 [finish tooEarly .computeNode]).setLinks 0
    [finish tooEarly .computeNode, .start]).setLinks 0
    [finish tooEarly .computeNode, finish (finish bothWritten .computeNode) .memoryNode]

abbrev LinkRun (link next : Link) : Prop := Relation.ReflTransGen (Link.Step nodeBase) link next

theorem run_bothWritten : LinkRun .start bothWritten := by
  have opened := Relation.ReflTransGen.single
    (@Link.Step.open nodeBase .start .computeNode ⟨4096, 7, 1, 1, .fill 1⟩ 0 rfl (fun isNode => by cases isNode))
  have bothOpened := opened.tail (.open .memoryNode ⟨nodeBase, 9, 2, 2, .fill 2⟩ 0 rfl fun _ => rfl)
  have written := bothOpened.tail (.write .computeNode certificateSize rfl)
  exact written.tail (.write .memoryNode certificateSize rfl)

theorem run_finish {link : Link} {role : Role} (run : LinkRun .start link)
    (isWritten : (link.endpoint role).phase = .written)
    (isExchanged : ((link.read role (link.incoming role) []).endpoint role).phase = .exchanged) :
    LinkRun .start (finish link role) :=
  (run.tail (.read role (link.incoming role) [] isWritten (List.append_nil _).symm)).tail
    (.ready role 0 0 0 isExchanged)

theorem reached_halfOpen : Reached [nodeBase] halfOpen := by
  have connected : Reached [nodeBase] (start.setLinks 0 [.start]) :=
    Reached.start.step (.connect 0 (by decide) (by decide))
  have early := run_finish (run_bothWritten.tail (.read .memoryNode [] _ (by decide) rfl)) (by decide +kernel)
    (show ((tooEarly.read .computeNode (tooEarly.incoming .computeNode) []).endpoint .computeNode).phase = _ by
      decide +kernel)
  have first := @Reached.run _ _ connected 0 0 .start _ nodeBase rfl rfl early
  have second := first.step (.connect 0 (by decide) (by decide +kernel))
  have half := @run_finish bothWritten .computeNode run_bothWritten (by decide) (by decide +kernel)
  have whole := @run_finish _ .memoryNode half (by decide +kernel) (by decide +kernel)
  exact @Reached.run _ _ second 0 1 .start _ nodeBase rfl rfl whole

end BringUp

end DiStore.Cluster
