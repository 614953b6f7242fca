import DiStore.Cluster.SplitSteps
import DiStore.Cluster.StoreMap

/-!
Contract: a `get` beside the puts of one other thread, step by step, as long as no put splits a node
or throws.

Owns: the steps of these puts that the get can see, their interleavings with the get, and that each
call alone is the call of the model.

Does not own: what the get finds (`Cluster.GetBesidePuts`), and puts that split
(`Cluster.SplitSteps`).

## What is one step

A transfer of one image and each store of a put to `data_node` or `type` are steps of their own.
What a put does before its first transfer is one step: it stores to locks, to its own context and
buffer and to the allocator, and no get reads any of these. The search of the put is part of that
step, for nobody else changes the search layer.

The buffer of the reader is its own, so it stands beside the compute node.
-/

set_option autoImplicit false

namespace DiStore.Cluster

open DiStore.Concurrency DiStore.DataLayer DiStore.Library DiStore.Memory DiStore.SearchLayer

/-- What a put that does not split its node did last. -/
inductive SteadyStage where
  /-- The record is in the buffer, which holds the node. -/
  | stored
  | written
  /-- The buffer holds the node for its new chunk. -/
  | morphed (remote : RemotePointer)
  | predWritten (remote : RemotePointer)
  | imageWritten (remote : RemotePointer)
  /-- `data_node->data_node = r`. -/
  | moved (remote : RemotePointer)
  /-- `data_node->type = real->type`. -/
  | retyped
deriving DecidableEq

inductive SteadyPut where
  | idle
  | running (stage : SteadyStage) (target : NodeId)
deriving DecidableEq

/-- The chunk that a put has taken and that no search node names yet. -/
def SteadyPut.pending : SteadyPut → Option RemotePointer
  | .running (.morphed remote) _ => some remote
  | .running (.predWritten remote) _ => some remote
  | .running (.imageWritten remote) _ => some remote
  | _ => none

structure PutsRace where
  node : ComputeNode
  put : SteadyPut
  get : GetProgress
  /-- the first slot of the reader -/
  buffer : LinkedNode

/-- Whose step is next; the writer can call `put` when it has returned from its last call. -/
inductive PutsTurn where
  | get
  | call (pair : KV)
  | put
deriving DecidableEq

namespace PutsRace

variable [Digest] (source : SegmentSource) (writer : ThreadId)

/-- `put10` and `eager_morph` up to `write_back_morphed`; a split is not among these steps. -/
def sealMorphed (node : ComputeNode) (target : NodeId) (pair : KV) : PutPlan → Option ComputeNode
  | .morph =>
      let work := node.morphWork writer target pair.key.val pair.value.val false
      some (node.staged writer work.pred (ComputeNode.sealedAs (morphNode work.real) work.real) work.requests)
  | .eager =>
      let work := node.eagerWork writer target pair.key.val pair.value.val false
      some (node.staged writer work.pred (ComputeNode.sealedAs .type16 work.real) work.requests)
  | .split _ _ _ _ _ => none

/-- The start of `write_back_morphed`: the chunk, and the link of the predecessor's image. -/
def linkMorphed (node : ComputeNode) : RemotePointer × ComputeNode :=
  let (r, node) := node.allocate source writer (sizeofNode (node.buffers writer 1).type)
  (r, node.setSlot writer 0 { node.buffers writer 0 with rlink := r })

/-- What a put does with both locks up to its first transfer: `fetch_two`, the store, and the image
of a node that has to move. No other thread hands requests over. -/
def stageWon (won : ComputeNode) (target : NodeId) (pair : KV) (type : LinkedNodeType) :
    Option (SteadyPut × ComputeNode) :=
  let node := won.fetchTwo writer target
  if ((node.buffers writer 1).store type.capacity pair.key.val pair.value.val).1 then
    let work := node.firstWork writer target pair.key.val pair.value.val type
    if work.requests = [] then
      some (.running .stored target, node.staged writer work.pred work.real work.requests)
    else none
  else
    (sealMorphed writer node target pair (planOf type ((node.contexts writer).requests.length + 1))).map
      fun sealed =>
        let (r, linked) := linkMorphed source writer sealed
        (.running (.morphed r) target, linked)

/-- A put up to its first transfer. A put that throws, for its search leads to the fake head, is not
among these steps either. -/
def stagePut (node : ComputeNode) (pair : KV) : Option (SteadyPut × ComputeNode) :=
  (node.slist.fuzzySearch pair.key.val).bind fun target =>
    let type := (node.slist.nodes target).type
    if type.IsData then
      match (node.drainPending writer).2.tryWinForInsert writer target with
      | (false, _) => none
      | (true, won) => stageWon source writer won target pair type
    else none

/-- The rest of a put, transfer by transfer and store by store; every write is done. `put10` and
`eager_morph` store to `data_node` once more before they store to `type`. -/
def publishNext (node : ComputeNode) (target : NodeId) : SteadyStage → SteadyPut × ComputeNode
  | .stored =>
      (.running .written target, node.write writer (node.slist.nodes target).dataNode
        (sizeofNode (node.slist.nodes target).type) 1 .done)
  | .written => (.idle, node.release writer target)
  | .morphed r =>
      (.running (.predWritten r) target, node.write writer (node.predData target)
        (sizeofNode (node.buffers writer 0).type) 0 .done)
  | .predWritten r =>
      (.running (.imageWritten r) target, node.write writer r (sizeofNode (node.buffers writer 1).type) 1 .done)
  | .imageWritten r => (.running (.moved r) target, node.setDataNode target r)
  | .moved r =>
      (.running .retyped target, (node.setDataNode target r).setType target (node.buffers writer 1).type)
  | .retyped => (.idle, node.release writer target)

/-- One step of the get; `none` if it has returned, or if its search names no node. -/
def stepGet (key : Bytes16) (race : PutsRace) : Option PutsRace :=
  match race.get with
  | .called => (race.node.slist.fuzzySearch key.val).map fun found => { race with get := .searched found }
  | .searched found => some { race with get := .addressed found (race.node.slist.nodes found).dataNode }
  | .addressed found address =>
      some { race with
        get := .fetched found address
        buffer := LinkedNode.overlay (sizeofNode .type16) (race.node.remote address) race.buffer }
  | .fetched found address => some { race with get := .typed address (race.node.slist.nodes found).type }
  | .typed _ type =>
      some { race with
        get := if crcValidate race.buffer type = race.buffer.crc then .returned (race.buffer.find key.val)
          else .called }
  | .returned _ => none

/-- One step; `none` if the turn is not possible. -/
def step (key : Bytes16) (race : PutsRace) : PutsTurn → Option PutsRace
  | .get => race.stepGet key
  | .call pair =>
      match race.put with
      | .idle => (stagePut source writer race.node pair).map fun next =>
          { race with put := next.1, node := next.2 }
      | .running _ _ => none
  | .put =>
      match race.put with
      | .idle => none
      | .running stage target =>
          some { race with
            put := (publishNext writer race.node target stage).1
            node := (publishNext writer race.node target stage).2 }

def run (key : Bytes16) (race : PutsRace) : List PutsTurn → Option PutsRace
  | [] => some race
  | turn :: turns => (race.step source writer key turn).bind fun next => next.run key turns

/-! ### The get alone -/

/-- Five steps without the writer are one round of `get`. -/
theorem get_alone {node : ComputeNode} {key : Bytes16} (reader : ThreadId) (remotePut : node.remotePut = true)
    {found : NodeId} (isFound : node.slist.fuzzySearch key.val = some found) (put : SteadyPut) :
    ∃ get buffer, run source writer key ⟨node, put, .called, node.buffers reader 0⟩ (List.replicate 5 .get) =
        some ⟨node, put, get, buffer⟩ ∧
      (node.get reader key.val).1 = get.callEnd := by
  have outcome := node.get_remote reader remotePut isFound
  have searched : PutsRace.stepGet key ⟨node, put, .called, node.buffers reader 0⟩ =
      some ⟨node, put, .searched found, node.buffers reader 0⟩ := by
    unfold PutsRace.stepGet
    change Option.map _ (node.slist.fuzzySearch key.val) = _
    rw [isFound]
    rfl
  refine ⟨if crcValidate (node.fetched reader found) (node.slist.nodes found).type = (node.fetched reader found).crc
    then .returned ((node.fetched reader found).find key.val) else .called, node.fetched reader found, ?_, ?_⟩
  · change (PutsRace.stepGet key ⟨node, put, .called, node.buffers reader 0⟩).bind _ = _
    rw [searched]
    rfl
  · rw [outcome]
    split
    next => rfl
    next => rfl

/-! ### The put alone -/

variable {source writer} {node won sealed linked : ComputeNode} {target : NodeId} {pair : KV}
variable {remote : RemotePointer}

/-- The transfers of `write_back_morphed`. -/
def sendMorphed (writer : ThreadId) (target : NodeId) (remote : RemotePointer) (node : ComputeNode) : ComputeNode :=
  let node := node.write writer (node.predData target) (sizeofNode (node.buffers writer 0).type) 0 .done
  node.write writer remote (sizeofNode (node.buffers writer 1).type) 1 .done

/-- All stores of a morph behind its transfers. -/
def moveTo (writer : ThreadId) (target : NodeId) (remote : RemotePointer) (node : ComputeNode) : ComputeNode :=
  let node := (node.setDataNode target remote).setDataNode target remote
  (node.setType target (node.buffers writer 1).type).release writer target

/-- What is left of a put, done at once. -/
def finish (writer : ThreadId) (target : NodeId) (node : ComputeNode) : SteadyStage → ComputeNode
  | .stored =>
      (node.write writer (node.slist.nodes target).dataNode (sizeofNode (node.slist.nodes target).type) 1
        .done).release writer target
  | .written => node.release writer target
  | .morphed r => moveTo writer target r (sendMorphed writer target r node)
  | .predWritten r =>
      moveTo writer target r (node.write writer r (sizeofNode (node.buffers writer 1).type) 1 .done)
  | .imageWritten r => moveTo writer target r node
  | .moved r =>
      ((node.setDataNode target r).setType target (node.buffers writer 1).type).release writer target
  | .retyped => node.release writer target

/-- The steps that are left of a put, one after the other. -/
theorem finish_run (key : Bytes16) (node : ComputeNode) (stage : SteadyStage) (get : GetProgress)
    (buffer : LinkedNode) :
    ∃ count, run source writer key ⟨node, .running stage target, get, buffer⟩ (List.replicate count .put) =
      some ⟨finish writer target node stage, .idle, get, buffer⟩ := by
  cases stage with
  | stored => exact ⟨2, rfl⟩
  | written => exact ⟨1, rfl⟩
  | morphed r => exact ⟨5, rfl⟩
  | predWritten r => exact ⟨4, rfl⟩
  | imageWritten r => exact ⟨3, rfl⟩
  | moved r => exact ⟨2, rfl⟩
  | retyped => exact ⟨1, rfl⟩

omit [Digest] in
theorem writeBackMorphed_eq (isLinked : linkMorphed source writer sealed = (remote, linked)) :
    sealed.writeBackMorphed source writer target .done =
      (remote, (sendMorphed writer target remote linked).setDataNode target remote) := by
  unfold linkMorphed ComputeNode.allocate at isLinked
  simp only [Prod.mk.injEq] at isLinked
  obtain ⟨isRemote, isNode⟩ := isLinked
  have sameImage : (linked.buffers writer 1).type = (sealed.buffers writer 1).type := by
    rw [← isNode]
    simp [ComputeNode.setSlot]
  have samePred : (linked.buffers writer 0).type = (sealed.buffers writer 0).type := by
    rw [← isNode]
    simp [ComputeNode.setSlot]
  have written : (sendMorphed writer target remote linked) =
      (linked.write writer (linked.predData target) (sizeofNode (sealed.buffers writer 0).type) 0 .done).write writer
        remote (sizeofNode (sealed.buffers writer 1).type) 1 .done := by
    rw [← sameImage, ← samePred]
    rfl
  unfold ComputeNode.writeBackMorphed ComputeNode.allocate
  rw [written, ← isNode, ← isRemote]
  rfl

/-- A chunk taken for the node in the second slot, and the image in the first slot linked to it. -/
structure LinkedMorph (source : SegmentSource) (writer : ThreadId) (before linked : ComputeNode)
    (r : RemotePointer) : Prop where
  slist : linked.slist = before.slist
  remote : linked.remote = before.remote
  shrinks : ∀ address, RemoteHeap.Reserve source linked.heap address → RemoteHeap.Reserve source before.heap address
  fresh : RemoteHeap.Reserve source before.heap r
  notNull : r ≠ nullptr
  pred : linked.buffers writer 0 = { before.buffers writer 0 with rlink := r }
  image : linked.buffers writer 1 = before.buffers writer 1

omit [Digest] in
theorem linkMorphed_linked (writer : ThreadId) (sound : RemoteHeap.Sound source sealed.heap)
    (isData : (sealed.buffers writer 1).type.IsData) :
    ∃ r linked, linkMorphed source writer sealed = (r, linked) ∧ LinkedMorph source writer sealed linked r := by
  obtain ⟨r, heap, allocated, _, notNull, shrinks, fresh, _⟩ := sealed.allocate_data writer sound isData
  unfold linkMorphed
  rw [allocated]
  refine ⟨r, _, rfl, rfl, rfl, shrinks, fresh, notNull, ?_, ?_⟩
  · simp [ComputeNode.setSlot]
  · simp [ComputeNode.setSlot]

omit [Digest] in
theorem relink_same (same : (node.buffers writer 0).rlink = remote) :
    node.setSlot writer 0 { node.buffers writer 0 with rlink := remote } = node := by
  unfold ComputeNode.setSlot
  rw [← same, Function.update_eq_self, Function.update_eq_self]

/-- A put that morphs its node goes on with the steps that are modelled one by one. -/
theorem followPlan_steps {draws : PutDraws} (isDone : draws.batch = .done) {plan : PutPlan}
    (isSealed : sealMorphed writer node target pair plan = some sealed)
    (isLinked : linkMorphed source writer sealed = (remote, linked)) (notNull : remote ≠ nullptr) :
    let outcome := node.followPlan source writer target pair.key.val pair.value.val draws false plan
    outcome.ret = true ∧
      outcome.node.release writer target = moveTo writer target remote (sendMorphed writer target remote linked) := by
  have written := @writeBackMorphed_eq source writer sealed linked target remote isLinked
  obtain ⟨isPred, isImage⟩ : linked.buffers writer 0 = { sealed.buffers writer 0 with rlink := remote } ∧
      linked.buffers writer 1 = sealed.buffers writer 1 := by
    unfold linkMorphed ComputeNode.allocate at isLinked
    simp only [Prod.mk.injEq] at isLinked
    obtain ⟨isRemote, isNode⟩ := isLinked
    rw [← isNode, isRemote]
    simp [ComputeNode.setSlot]
  have isReal : ∀ (pred real : LinkedNode) (requests : List ConcurrencyRequest),
      (node.staged writer pred real requests).buffers writer 1 = real := by
    intro pred real requests
    simp [ComputeNode.staged, ComputeNode.setSlot, ComputeNode.setRequests]
  cases plan with
  | morph =>
      cases isSealed
      unfold ComputeNode.followPlan ComputeNode.morphPath
      simp only [isDone, written]
      refine ⟨decide_eq_true notNull, ?_⟩
      have chosen := congrArg LinkedNode.type isImage
      rw [isReal] at chosen
      rw [← chosen]
      rfl
  | eager =>
      cases isSealed
      unfold ComputeNode.followPlan ComputeNode.eagerMorph
      simp only [isDone, written, if_neg notNull]
      refine ⟨trivial, ?_⟩
      have chosen := congrArg LinkedNode.type isImage
      rw [isReal] at chosen
      -- `pred->rlink` is `remote` already
      have relinked : (((sendMorphed writer target remote linked).setDataNode target remote).buffers writer 0).rlink =
          remote := congrArg LinkedNode.rlink isPred
      rw [relink_same relinked, ← chosen]
      rfl
  | split => cases isSealed

/-- The image of a node that has to move, before its chunk is taken. -/
structure SealedMorph (writer : ThreadId) (target : NodeId) (won sealed : ComputeNode) : Prop where
  slist : sealed.slist = won.slist
  remote : sealed.remote = won.remote
  heap : sealed.heap = won.heap
  pred : sealed.buffers writer 0 = won.fetchedPred writer target
  isData : (sealed.buffers writer 1).type.IsData

theorem sealMorphed_sealed {plan : PutPlan} (queue : (won.contexts writer).requests = [])
    (isSealed : sealMorphed writer (won.fetchTwo writer target) target pair plan = some sealed) :
    SealedMorph writer target won sealed := by
  have buffers := won.fetchTwo_buffers writer target
  have sameQueue : ((won.fetchTwo writer target).contexts writer).requests = [] := queue
  have isPred : ∀ (pred real : LinkedNode) (requests : List ConcurrencyRequest),
      ((won.fetchTwo writer target).staged writer pred real requests).buffers writer 0 = pred := by
    intro pred real requests
    simp [ComputeNode.staged, ComputeNode.setSlot, ComputeNode.setRequests]
  have isReal : ∀ (pred real : LinkedNode) (requests : List ConcurrencyRequest),
      ((won.fetchTwo writer target).staged writer pred real requests).buffers writer 1 = real := by
    intro pred real requests
    simp [ComputeNode.staged, ComputeNode.setSlot, ComputeNode.setRequests]
  cases plan with
  | morph =>
      cases isSealed
      refine ⟨rfl, rfl, rfl, ?_, ?_⟩
      · rw [isPred, ← buffers.1]
        unfold ComputeNode.morphWork
        rw [sameQueue]
        rfl
      · rw [isReal]
        exact morphNode_isData _
  | eager =>
      cases isSealed
      refine ⟨rfl, rfl, rfl, ?_, ?_⟩
      · rw [isPred, ← buffers.1]
        unfold ComputeNode.eagerWork
        rw [sameQueue]
        rfl
      · rw [isReal]
        exact LinkedNodeType.isData16
  | split => cases isSealed

/-- A put before its first transfer. `won` is the state in which both locks are taken. -/
structure Begun (source : SegmentSource) (writer : ThreadId) (target : NodeId) (won staged : ComputeNode)
    (stage : SteadyStage) : Prop where
  slist : staged.slist = won.slist
  remote : staged.remote = won.remote
  shrinks : ∀ address, RemoteHeap.Reserve source staged.heap address → RemoteHeap.Reserve source won.heap address
  first : stage = .stored ∨ ∃ r, stage = .morphed r ∧ RemoteHeap.Reserve source won.heap r ∧
    staged.buffers writer 0 = { won.fetchedPred writer target with rlink := r }

/-- What a put does up to its first transfer once it has its locks. -/
theorem stageWon_begun {type : LinkedNodeType} (sound : RemoteHeap.Sound source won.heap)
    (isType : (won.slist.nodes target).type = type) (queue : (won.contexts writer).requests = [])
    {next : SteadyPut × ComputeNode} (isNext : stageWon source writer won target pair type = some next) :
    ∃ stage, next.1 = .running stage target ∧ Begun source writer target won next.2 stage ∧
      ∀ draws : PutDraws, draws.write = .done → draws.batch = .done →
        let outcome := won.putWon source writer target pair.key.val pair.value.val draws type (planOf type)
        outcome.ret = true ∧ outcome.node = finish writer target next.2 stage := by
  unfold stageWon at isNext
  simp only [ComputeNode.fetched_stored, decide_eq_true_eq] at isNext
  by_cases room : (won.fetchedReal writer target).next < type.capacity
  · have served : ((won.fetchTwo writer target).firstWork writer target pair.key.val pair.value.val type).requests =
        [] := by
      rw [ComputeNode.firstWork_fetched, queue]
      rfl
    rw [if_pos room, if_pos served, Option.some.injEq] at isNext
    subst isNext
    refine ⟨.stored, rfl, ⟨rfl, rfl, fun _ reserved => reserved, Or.inl rfl⟩, ?_⟩
    intro draws writeDone _ outcome
    have isPut : outcome = _ :=
      ComputeNode.putWon_inPlace pair.key.val pair.value.val (planOf type) room writeDone rfl served
    rw [isPut]
    refine ⟨rfl, ?_⟩
    rw [served, ← isType]
    rfl
  · rw [if_neg room, Option.map_eq_some_iff] at isNext
    obtain ⟨sealed, isSealed, isNext⟩ := isNext
    have full := not_lt.mp room
    have facts := sealMorphed_sealed queue isSealed
    obtain ⟨r, linked, isLinked, links⟩ := linkMorphed_linked writer (facts.heap ▸ sound) facts.isData
    rw [isLinked] at isNext
    subst isNext
    have fresh := links.fresh
    have shrinks := links.shrinks
    rw [facts.heap] at fresh shrinks
    refine ⟨.morphed r, rfl, ⟨links.slist.trans facts.slist, links.remote.trans facts.remote, shrinks,
      Or.inr ⟨r, rfl, fresh, links.pred.trans (by rw [facts.pred])⟩⟩, ?_⟩
    intro draws _ batchDone outcome
    have isPut : outcome = _ := ComputeNode.putWon_full pair.key.val pair.value.val draws (planOf type) full
    have steps := followPlan_steps batchDone isSealed isLinked links.notNull
    rw [isPut]
    exact steps

/-- A put that has begun in a serving store, and how the call ends. -/
structure BegunPut (source : SegmentSource) (writer : ThreadId) (node : ComputeNode) (pair : KV) (target : NodeId)
    (won staged : ComputeNode) (stage : SteadyStage) : Prop where
  found : node.slist.fuzzySearch pair.key.val = some target
  isMember : target ∈ node.chain
  wonInsert : ComputeNode.WonInsert node won writer target
  serving : ComputeNode.Serving source won
  chain : won.chain = node.chain
  contents : won.contents = node.contents
  begun : Begun source writer target won staged stage
  ends : ∀ (flush : FlushDraws) (draws : PutDraws), ComputeNode.AllWritesDone flush draws →
    node.put source writer pair.key.val pair.value.val flush draws =
      (.returned true, finish writer target staged stage)

/-- A put between two calls, unless it throws or splits, runs with the steps that are modelled one by
one. -/
theorem stagePut_begun (serving : ComputeNode.Serving source node) (idle : ComputeNode.Idle node)
    {next : SteadyPut × ComputeNode} (isNext : stagePut source writer node pair = some next) :
    ∃ target won stage, next.1 = .running stage target ∧
      BegunPut source writer node pair target won next.2 stage := by
  unfold stagePut at isNext
  rw [Option.bind_eq_some_iff] at isNext
  obtain ⟨target, found, isNext⟩ := isNext
  simp only at isNext
  by_cases isData : (node.slist.nodes target).type.IsData
  · obtain ⟨earlier, later, divided, _, _⟩ := serving.wellFormed.routed found isData
    obtain ⟨won, isWon, wonInsert, wonServing, contents, chain⟩ := serving.wins idle writer divided
    have sameType := (ComputeNode.WonInsert.same wonInsert).2.2.1
    rw [if_pos isData, isWon] at isNext
    obtain ⟨stage, isRunning, begun, ends⟩ := stageWon_begun wonServing.wellFormed.sound sameType
      wonInsert.requests isNext
    refine ⟨target, won, stage, isRunning, found, ComputeNode.mem_of_divided divided, wonInsert, wonServing,
      chain, contents, begun, ?_⟩
    intro flush draws done
    obtain ⟨isTrue, isNode⟩ := ends draws done.write done.batch
    unfold ComputeNode.put ComputeNode.remotePutCall ComputeNode.putDispatcher
    simp only [serving.settled.remotePut, if_true, found, if_pos isData, isWon]
    rw [ComputeNode.putFor_eq _ _ _ _ _ _ _ isData, isTrue, isNode]
    rfl
  · rw [if_neg isData] at isNext
    cases isNext

/-- A put that is called and then takes all its steps is the whole `put`. -/
theorem put_alone (serving : ComputeNode.Serving source node) (idle : ComputeNode.Idle node) (key : Bytes16)
    {staged : SteadyPut × ComputeNode} (isStaged : stagePut source writer node pair = some staged)
    {flush : FlushDraws} {draws : PutDraws} (done : ComputeNode.AllWritesDone flush draws) (get : GetProgress)
    (buffer : LinkedNode) :
    ∃ count after, run source writer key ⟨node, .idle, get, buffer⟩ (.call pair :: List.replicate count .put) =
        some ⟨after, .idle, get, buffer⟩ ∧
      node.put source writer pair.key.val pair.value.val flush draws = (.returned true, after) := by
  have called : step source writer key ⟨node, .idle, get, buffer⟩ (.call pair) =
      some ⟨staged.2, staged.1, get, buffer⟩ := by
    unfold step
    simp only [isStaged, Option.map_some]
  obtain ⟨target, won, stage, isRunning, begun⟩ := stagePut_begun serving idle isStaged
  obtain ⟨count, ran⟩ := @finish_run _ source writer target key staged.2 stage get buffer
  refine ⟨count, _, ?_, begun.ends flush draws done⟩
  unfold run
  rw [called, isRunning]
  exact ran

end PutsRace

end DiStore.Cluster
