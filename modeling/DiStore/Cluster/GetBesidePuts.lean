import DiStore.Cluster.PutSteps
import DiStore.Cluster.SealedImages
import DiStore.Library.MovableCell

/-!
Contract: what a `get` reads beside puts that do not split a node.

Owns: the store after each step of these puts, that no step changes an image behind an address that
the search layer has ceased to name, and that a get returns what the map had at one moment of the get.

Does not own: puts that split, during which a get can miss a stored key (`Cluster.SplitRace`), and
the background thread.

## Why the address may be old

A get loads `data_node` and fetches from it later. In between the node may have moved to another
chunk. The old chunk is never written again, since chunks are not reused, so the get reads what the
node held when it moved away.
-/

set_option autoImplicit false

namespace DiStore.Cluster.PutsRace

open DiStore.Concurrency DiStore.DataLayer DiStore.Library DiStore.Memory DiStore.SearchLayer
open ComputeNode (keyOf)

variable {source : SegmentSource} {writer : ThreadId} {node before after won : ComputeNode}
variable {target : NodeId} {pair : KV} {records : List KV} {key : Bytes16}

/-! ### Stores that no get tells apart -/

/-- The same search layer but for locks and places, and the same records in every image. -/
structure Alike (before after : ComputeNode) : Prop where
  search : SkipList.SameSearch after.slist before.slist
  entries : ∀ id ∈ SkipList.head :: before.chain, (after.imageOf id).entries = (before.imageOf id).entries

theorem chain_of_sameSearch (search : SkipList.SameSearch after.slist before.slist) : after.chain = before.chain := by
  have forward : after.slist.forward 0 = before.slist.forward 0 := funext fun id => search.forward 0 id
  unfold ComputeNode.chain SkipList.levelChain
  rw [forward, search.count]

theorem alike_of_moved {type : LinkedNodeType}
    (moved : ComputeNode.Moved before.slist after.slist target (before.slist.nodes target).dataNode type)
    (remote : after.remote = before.remote) : Alike after before where
  search := (SplitRace.sameSearch_of_moved moved).symm
  entries id _ := by
    unfold ComputeNode.imageOf
    rw [remote, moved.dataNode]
    split
    next isTarget => rw [isTarget]
    next => rfl

variable [Digest]

/-- Every search leads to an image that has what a map of records has. -/
def Answers (records : List KV) (node : ComputeNode) : Prop :=
  ∀ (key : Bytes16) (found : NodeId), node.slist.fuzzySearch key.val = some found →
    found ∈ SkipList.head :: node.chain ∧ (node.imageOf found).next ≤ 16 ∧
      (node.imageOf found).find key.val = (recordOf keyOf key.val records).map KV.value

/-- The store between two calls, after the puts of `records`. -/
structure Rests (source : SegmentSource) (records : List KV) (node : ComputeNode) : Prop where
  serving : ComputeNode.Serving source node
  idle : ComputeNode.Idle node
  held : node.contents.Perm (addAll keyOf records)

theorem answers_of_alike (serving : ComputeNode.Serving source before)
    (held : before.contents.Perm (addAll keyOf records)) (alike : Alike before after) :
    Answers records after := by
  intro key found isFound
  rw [alike.search.fuzzySearch] at isFound
  have isMember : found ∈ SkipList.head :: before.chain := by
    rcases serving.wellFormed.leads key.val with ⟨leads, _⟩ | ⟨other, inChain, leads, _⟩
    · rw [isFound] at leads
      cases leads
      exact List.mem_cons_self
    · rw [isFound] at leads
      cases leads
      exact List.mem_cons_of_mem _ inChain
  obtain ⟨bounded, value⟩ := serving.find_eq isFound
  have same := alike.entries found isMember
  have distinct : (before.contents.map keyOf).Nodup :=
    (held.map keyOf).nodup_iff.mpr (nodup_addAll records)
  rw [chain_of_sameSearch alike.search]
  refine ⟨isMember, ?_, ?_⟩
  · rw [ComputeNode.next_of_entries same]
    exact bounded
  · rw [LinkedNode.find_of_entries same, value, recordOf_perm held distinct, recordOf_addAll]

theorem Rests.answers (rests : Rests source records before) (alike : Alike before after) : Answers records after :=
  answers_of_alike rests.serving rests.held alike

/-! ### The put, step by step -/

/-- The put has neither written its node in place nor moved it. -/
def early : SteadyStage → Bool
  | .written => false
  | .moved _ => false
  | .retyped => false
  | _ => true

/-- The puts whose records a get can find, of those that were called. -/
def published (called : List KV) : SteadyPut → List KV
  | .idle => called
  | .running stage _ => if early stage then called.dropLast else called

/-- A put that no get has seen, with the chunk it has taken for its node. -/
structure Early (source : SegmentSource) (records : List KV) (target : NodeId) (won node : ComputeNode)
    (chunk : Option RemotePointer) : Prop where
  serving : ComputeNode.Serving source won
  held : won.contents.Perm (addAll keyOf records)
  isMember : target ∈ won.chain
  slist : node.slist = won.slist
  shrinks : ∀ address, RemoteHeap.Reserve source node.heap address → RemoteHeap.Reserve source won.heap address
  fresh : ∀ r ∈ chunk, RemoteHeap.Reserve source won.heap r
  entries : ∀ id ∈ SkipList.head :: won.chain, (node.imageOf id).entries = (won.imageOf id).entries

/-- What holds after a step of a put. -/
def StageAt (source : SegmentSource) (writer : ThreadId) (called : List KV) (node : ComputeNode) (target : NodeId) :
    SteadyStage → Prop
  | .stored => ∃ won, Early source called.dropLast target won node none
  | .morphed r =>
      ∃ won, Early source called.dropLast target won node (some r) ∧ node.remote = won.remote ∧
        node.buffers writer 0 = { won.fetchedPred writer target with rlink := r }
  | .predWritten r => ∃ won, Early source called.dropLast target won node (some r)
  | .imageWritten r => ∃ won, Early source called.dropLast target won node (some r)
  | .written => True
  | .moved r => (node.slist.nodes target).dataNode = r
  | .retyped => True

/-- What holds beside a get, whatever it has read. The running put will leave the store as at rest. -/
def PutAt (source : SegmentSource) (writer : ThreadId) (called : List KV) (node : ComputeNode) : SteadyPut → Prop
  | .idle => Rests source called node
  | .running stage target =>
      Rests source called (finish writer target node stage) ∧ StageAt source writer called node target stage

variable {called : List KV} {chunk : Option RemotePointer} {put : SteadyPut}

theorem Early.answers (isEarly : Early source records target won node chunk) : Answers records node := by
  apply answers_of_alike isEarly.serving isEarly.held
  refine ⟨?_, isEarly.entries⟩
  rw [isEarly.slist]
  exact SkipList.SameSearch.refl _

omit [Digest] in
theorem moved_retype (node : ComputeNode) (target : NodeId) (r : RemotePointer) (type : LinkedNodeType) :
    ComputeNode.Moved node.slist ((node.setDataNode target r).setType target type).slist target r type := by
  have first := ComputeNode.moved_setDataNode node.slist target r
  have second := ComputeNode.moved_setType (node.slist.setDataNode target r) target type
  have place := first.dataNode target
  rw [if_pos rfl] at place
  rw [place] at second
  exact first.trans second

/-- In every state, each search leads to an image with what the published puts have left. -/
theorem PutAt.answers (putAt : PutAt source writer called node put) : Answers (published called put) node := by
  cases put with
  | idle => exact Rests.answers putAt ⟨SkipList.SameSearch.refl _, fun _ _ => rfl⟩
  | running stage target =>
      obtain ⟨rests, stageAt⟩ := putAt
      cases stage with
      | stored =>
          obtain ⟨won, isEarly⟩ := stageAt
          exact isEarly.answers
      | morphed r =>
          obtain ⟨won, isEarly, _⟩ := stageAt
          exact isEarly.answers
      | predWritten r =>
          obtain ⟨won, isEarly⟩ := stageAt
          exact isEarly.answers
      | imageWritten r =>
          obtain ⟨won, isEarly⟩ := stageAt
          exact isEarly.answers
      | written => exact rests.answers (alike_of_moved (ComputeNode.release_moved node writer target) rfl)
      | moved r =>
          change _ = r at stageAt
          subst stageAt
          exact rests.answers (alike_of_moved ((moved_retype node target _ _).release writer) rfl)
      | retyped => exact rests.answers (alike_of_moved (ComputeNode.release_moved node writer target) rfl)

/-! ### Places that are no longer written -/

variable {race next : PutsRace}

/-- No search node names the address, and no put takes a chunk there. -/
def Retired (source : SegmentSource) (race : PutsRace) (address : RemotePointer) : Prop :=
  (∀ id ∈ SkipList.head :: race.node.chain, (race.node.slist.nodes id).dataNode ≠ address) ∧
    ¬ RemoteHeap.Reserve source race.node.heap address ∧ race.put.pending ≠ some address

/-- A search node as a cell that a morph moves. -/
def nodeCell (source : SegmentSource) (id : NodeId) : MovableCell PutsRace RemotePointer (List (UInt8 × KV)) where
  place race := (race.node.slist.nodes id).dataNode
  reading race address := (race.node.remote address).entries
  retired := Retired source

/-- A step of the writer: searches go on as before, and no node loses what it held. -/
structure WriterStep (source : SegmentSource) (race next : PutsRace) : Prop where
  search : SkipList.SameSearch next.node.slist race.node.slist
  orderly : ∀ id ∈ SkipList.head :: race.node.chain, (nodeCell source id).Orderly race next
  untouched : ∀ address, Retired source race address → next.node.remote address = race.node.remote address

omit [Digest] in
/-- A step that moves no node. -/
theorem writerStep_inPlace (search : SkipList.SameSearch next.node.slist race.node.slist)
    (place : ∀ id, (next.node.slist.nodes id).dataNode = (race.node.slist.nodes id).dataNode)
    (shrinks : ∀ address, RemoteHeap.Reserve source next.node.heap address →
      RemoteHeap.Reserve source race.node.heap address)
    (pending : ∀ r ∈ next.put.pending, r ∈ race.put.pending ∨ RemoteHeap.Reserve source race.node.heap r)
    (remote : ∀ address, Retired source race address → next.node.remote address = race.node.remote address) :
    WriterStep source race next := by
  refine ⟨search, ?_, remote⟩
  intro id _
  constructor
  · intro address retired
    have sameReading := remote address retired
    obtain ⟨noPlace, taken, notPending⟩ := retired
    refine ⟨⟨?_, ?_, ?_⟩, congrArg LinkedNode.entries sameReading⟩
    · intro other isMember
      rw [chain_of_sameSearch search] at isMember
      rw [place]
      exact noPlace other isMember
    · exact fun reserved => taken (shrinks address reserved)
    · intro isPending
      rcases pending address isPending with wasPending | reserved
      · exact notPending wasPending
      · exact taken reserved
  · exact fun moved => absurd (place id) moved

omit [Digest] in
/-- Stores to locks and types only. -/
theorem writerStep_moved {type : LinkedNodeType}
    (moved : ComputeNode.Moved race.node.slist next.node.slist target (race.node.slist.nodes target).dataNode type)
    (heap : next.node.heap = race.node.heap) (remote : next.node.remote = race.node.remote)
    (pending : next.put.pending = none) : WriterStep source race next := by
  apply writerStep_inPlace (SplitRace.sameSearch_of_moved moved)
  · intro id
    rw [moved.dataNode]
    split
    next isTarget => rw [isTarget]
    next => rfl
  · rw [heap]
    exact fun _ reserved => reserved
  · rw [pending]
    nofun
  · intro address _
    rw [remote]

omit [Digest] in
/-- A transfer to a place that is not retired. -/
theorem writerStep_write {get : GetProgress} {buffer : LinkedNode} {later : SteadyPut}
    {address : RemotePointer} {size slot : Nat} (pending : later.pending = put.pending ∨ later.pending = none)
    (inUse : ¬ Retired source ⟨node, put, get, buffer⟩ address) :
    WriterStep source ⟨node, put, get, buffer⟩ ⟨node.write writer address size slot .done, later, get, buffer⟩ := by
  apply writerStep_inPlace
  · exact SkipList.SameSearch.refl _
  · exact fun _ => rfl
  · exact fun _ reserved => reserved
  · intro r isPending
    change r ∈ later.pending at isPending
    rcases pending with same | none
    · exact Or.inl (same ▸ isPending)
    · rw [none] at isPending
      cases isPending
  · intro other retired
    have apart : other ≠ address := by
      intro same
      rw [same] at retired
      exact inUse retired
    change Function.update node.remote address _ other = node.remote other
    exact Function.update_of_ne apart _ _

namespace Early

variable (isEarly : Early source records target won node chunk)

include isEarly

theorem chain : node.chain = won.chain := congrArg (SkipList.levelChain · 0) isEarly.slist

/-- The chunk of a search node is in use. -/
theorem inUse {get : GetProgress} {buffer : LinkedNode} {id : NodeId} (isMember : id ∈ SkipList.head :: won.chain) :
    ¬ Retired source ⟨node, put, get, buffer⟩ (node.slist.nodes id).dataNode := by
  intro retired
  apply retired.1 id _ rfl
  rw [isEarly.chain]
  exact isMember

/-- The chunk that a put has taken is nowhere in the search layer. -/
theorem fresh_ne {r : RemotePointer} (isChunk : r ∈ chunk) {id : NodeId}
    (isMember : id ∈ SkipList.head :: won.chain) : (won.slist.nodes id).dataNode ≠ r := by
  intro same
  have taken := isEarly.serving.wellFormed.dataNode_taken isMember
  rw [same] at taken
  exact taken (isEarly.fresh r isChunk)

/-- A transfer that leaves every image its records. -/
theorem write {address : RemotePointer} {size slot : Nat}
    (entries : ∀ id ∈ SkipList.head :: won.chain,
      ((node.write writer address size slot .done).imageOf id).entries = (node.imageOf id).entries) :
    Early source records target won (node.write writer address size slot .done) chunk where
  serving := isEarly.serving
  held := isEarly.held
  isMember := isEarly.isMember
  slist := isEarly.slist
  shrinks := isEarly.shrinks
  fresh := isEarly.fresh
  entries id isMember := (entries id isMember).trans (isEarly.entries id isMember)

/-- The link of the predecessor's image changes no records. -/
theorem writePred (remote : node.remote = won.remote) {r : RemotePointer}
    (pred : node.buffers writer 0 = { won.fetchedPred writer target with rlink := r }) :
    Early source records target won
      (node.write writer (node.predData target) (sizeofNode (node.buffers writer 0).type) 0 .done) chunk := by
  apply isEarly.write
  intro id isMember
  have samePred : node.predData target = won.predData target := by
    unfold ComputeNode.predData ComputeNode.backwardOf
    rw [isEarly.slist]
  obtain ⟨link, image⟩ := isEarly.serving.wellFormed.relinked_images isEarly.isMember writer r isMember
  have written : (node.write writer (node.predData target) (sizeofNode (node.buffers writer 0).type) 0
      .done).imageOf id = { won.imageOf id with rlink := link } := by
    rw [← image]
    change Function.update node.remote (node.predData target) (LinkedNode.overlay _ (node.buffers writer 0) _)
      (node.slist.nodes id).dataNode = _
    rw [pred, samePred, remote, isEarly.slist]
  rw [written, isEarly.entries id isMember]
  rfl

/-- The image in the new chunk is not reached yet. -/
theorem writeImage {r : RemotePointer} (isChunk : r ∈ chunk) (size slot : Nat) :
    Early source records target won (node.write writer r size slot .done) chunk := by
  apply isEarly.write
  intro id isMember
  change (Function.update node.remote r _ (node.slist.nodes id).dataNode).entries = _
  rw [isEarly.slist, Function.update_of_ne (isEarly.fresh_ne isChunk isMember), ← isEarly.slist]
  rfl

/-- `data_node->data_node = r` retires the old chunk. -/
theorem moves {r : RemotePointer} (isChunk : r ∈ chunk) {later : SteadyPut} (pending : put.pending = some r)
    (done : later.pending = none) (get : GetProgress) (buffer : LinkedNode) :
    WriterStep source ⟨node, put, get, buffer⟩ ⟨node.setDataNode target r, later, get, buffer⟩ := by
  have moved := ComputeNode.moved_setDataNode node.slist target r
  have search := SplitRace.sameSearch_of_moved moved
  have sameChain : (node.setDataNode target r).chain = won.chain := (chain_of_sameSearch search).trans isEarly.chain
  have place : ∀ id, ((node.setDataNode target r).slist.nodes id).dataNode =
      if id = target then r else (won.slist.nodes id).dataNode := by
    intro id
    rw [← isEarly.slist]
    exact moved.dataNode id
  have wellFormed := isEarly.serving.wellFormed
  have targetMember : target ∈ SkipList.head :: won.chain := List.mem_cons_of_mem _ isEarly.isMember
  refine ⟨search, fun id _ => ⟨?_, ?_⟩, fun _ _ => rfl⟩
  · intro address retired
    obtain ⟨noPlace, taken, notPending⟩ := retired
    refine ⟨⟨?_, taken, ?_⟩, rfl⟩
    · intro other isMember
      change other ∈ SkipList.head :: (node.setDataNode target r).chain at isMember
      rw [sameChain] at isMember
      change ((node.setDataNode target r).slist.nodes other).dataNode ≠ address
      rw [place]
      split
      next =>
        intro same
        rw [← same] at notPending
        exact notPending pending
      next =>
        rw [← isEarly.slist]
        apply noPlace other
        change other ∈ SkipList.head :: node.chain
        rw [isEarly.chain]
        exact isMember
    · change later.pending ≠ some address
      rw [done]
      nofun
  · intro hasMoved
    have isTarget : id = target := by
      by_contra other
      apply hasMoved
      change ((node.setDataNode target r).slist.nodes id).dataNode = (node.slist.nodes id).dataNode
      rw [place, if_neg other, isEarly.slist]
    subst isTarget
    have oldPlace : (nodeCell source id).place ⟨node, put, get, buffer⟩ = (won.slist.nodes id).dataNode := by
      change (node.slist.nodes id).dataNode = _
      rw [isEarly.slist]
    rw [oldPlace]
    refine ⟨⟨?_, ?_, ?_⟩, rfl⟩
    · intro other isMember
      change other ∈ SkipList.head :: (node.setDataNode id r).chain at isMember
      rw [sameChain] at isMember
      change ((node.setDataNode id r).slist.nodes other).dataNode ≠ _
      rw [place]
      split
      next => exact (isEarly.fresh_ne isChunk targetMember).symm
      next isOther => exact wellFormed.dataNode_ne isMember targetMember isOther
    · exact fun reserved => wellFormed.dataNode_taken targetMember (isEarly.shrinks _ reserved)
    · change later.pending ≠ some _
      rw [done]
      nofun

end Early

/-- A step of a running put. -/
theorem PutAt.publishNext {stage : SteadyStage}
    (putAt : PutAt source writer called node (.running stage target)) (get : GetProgress) (buffer : LinkedNode) :
    let next := publishNext writer node target stage
    PutAt source writer called next.2 next.1 ∧
      WriterStep source ⟨node, .running stage target, get, buffer⟩ ⟨next.2, next.1, get, buffer⟩ := by
  obtain ⟨rests, stageAt⟩ := putAt
  cases stage with
  | stored =>
      obtain ⟨won, isEarly⟩ := stageAt
      refine ⟨⟨rests, trivial⟩, ?_⟩
      exact writerStep_write (Or.inl rfl) (isEarly.inUse (List.mem_cons_of_mem _ isEarly.isMember))
  | written => exact ⟨rests, writerStep_moved (ComputeNode.release_moved node writer target) rfl rfl rfl⟩
  | morphed r =>
      obtain ⟨won, isEarly, remote, pred⟩ := stageAt
      refine ⟨⟨rests, won, isEarly.writePred remote pred⟩, ?_⟩
      have predMember := (isEarly.serving.wellFormed.backwardOf_mem isEarly.isMember).1
      have samePred : won.backwardOf target = node.backwardOf target := by
        unfold ComputeNode.backwardOf
        rw [isEarly.slist]
      rw [samePred] at predMember
      exact writerStep_write (Or.inl rfl) (isEarly.inUse predMember)
  | predWritten r =>
      obtain ⟨won, isEarly⟩ := stageAt
      refine ⟨⟨rests, won, isEarly.writeImage rfl _ _⟩, ?_⟩
      exact writerStep_write (Or.inl rfl) fun retired => retired.2.2 rfl
  | imageWritten r =>
      obtain ⟨won, isEarly⟩ := stageAt
      refine ⟨⟨rests, ?_⟩, isEarly.moves rfl rfl rfl get buffer⟩
      exact ((ComputeNode.moved_setDataNode node.slist target r).dataNode target).trans (if_pos rfl)
  | moved r =>
      change _ = r at stageAt
      subst stageAt
      exact ⟨⟨rests, trivial⟩, writerStep_moved (moved_retype node target _ _) rfl rfl rfl⟩
  | retyped => exact ⟨rests, writerStep_moved (ComputeNode.release_moved node writer target) rfl rfl rfl⟩

/-- The start of a put. -/
theorem Rests.stagePut (rests : Rests source called node) {staged : SteadyPut × ComputeNode}
    (isStaged : stagePut source writer node pair = some staged) (keeps : node.KeepsRecords pair)
    (get : GetProgress) (buffer : LinkedNode) :
    PutAt source writer (called ++ [pair]) staged.2 staged.1 ∧
      WriterStep source ⟨node, .idle, get, buffer⟩ ⟨staged.2, staged.1, get, buffer⟩ := by
  obtain ⟨put, staged⟩ := staged
  obtain ⟨target, won, stage, isRunning, begunPut⟩ := stagePut_begun rests.serving rests.idle isStaged
  change put = _ at isRunning
  subst isRunning
  have wonInsert := begunPut.wonInsert
  have begun := begunPut.begun
  have moved := wonInsert.moved
  have held : won.contents.Perm (addAll keyOf (called ++ [pair]).dropLast) := by
    rw [List.dropLast_concat, begunPut.contents]
    exact rests.held
  have isEarly : ∀ chunk : Option RemotePointer, (∀ r ∈ chunk, RemoteHeap.Reserve source won.heap r) →
      Early source (called ++ [pair]).dropLast target won staged chunk := by
    intro chunk fresh
    refine ⟨begunPut.serving, held, ?_, begun.slist, begun.shrinks, fresh, ?_⟩
    · rw [begunPut.chain]
      exact begunPut.isMember
    · intro id _
      unfold ComputeNode.imageOf
      rw [begun.remote, begun.slist]
  constructor
  · constructor
    · have done : ComputeNode.AllWritesDone ComputeNode.drawsDone ComputeNode.writesDone := ⟨rfl, rfl, rfl, rfl⟩
      have returned := begunPut.ends _ _ done
      obtain ⟨serving, _, added⟩ := rests.serving.put_returned rests.idle done keeps returned
      exact ⟨serving, rests.idle.put returned, ComputeNode.perm_added rests.held added⟩
    · rcases begun.first with isStored | ⟨r, isMorphed, fresh, pred⟩
      · subst isStored
        exact ⟨won, isEarly none nofun⟩
      · subst isMorphed
        refine ⟨won, isEarly (some r) ?_, begun.remote, pred⟩
        intro other isChunk
        cases isChunk
        exact fresh
  · apply writerStep_inPlace
    · change SkipList.SameSearch staged.slist node.slist
      rw [begun.slist]
      exact SplitRace.sameSearch_of_moved moved
    · intro id
      change (staged.slist.nodes id).dataNode = (node.slist.nodes id).dataNode
      rw [begun.slist, moved.dataNode]
      split
      next isTarget => rw [isTarget]
      next => rfl
    · intro address reserved
      rw [← wonInsert.heap]
      exact begun.shrinks address reserved
    · intro r isPending
      rcases begun.first with isStored | ⟨chunk, isMorphed, fresh, _⟩
      · subst isStored
        cases isPending
      · subst isMorphed
        cases isPending
        right
        change RemoteHeap.Reserve source node.heap r
        rw [← wonInsert.heap]
        exact fresh
    · intro address _
      change staged.remote address = node.remote address
      rw [begun.remote, wonInsert.remote]

/-! ### Runs -/

variable {start : PutsRace} {turns earlier : List PutsTurn} {turn : PutsTurn} {result : Option Bytes16}

/-- The puts that were called, in this order. -/
def putsOf (turns : List PutsTurn) : List KV :=
  turns.filterMap fun turn =>
    match turn with
    | .call pair => some pair
    | _ => none

omit [Digest] in
theorem putsOf_append (turns later : List PutsTurn) : putsOf (turns ++ later) = putsOf turns ++ putsOf later :=
  List.filterMap_append

/-- Every put that is called keeps the records of its node. -/
def AllKeep (source : SegmentSource) (writer : ThreadId) (key : Bytes16) (start : PutsRace)
    (turns : List PutsTurn) : Prop :=
  ∀ (earlier later : List PutsTurn) (pair : KV) (moment : PutsRace), turns = earlier ++ .call pair :: later →
    start.run source writer key earlier = some moment → moment.node.KeepsRecords pair

theorem AllKeep.init {later : List PutsTurn} (keeps : AllKeep source writer key start (turns ++ later)) :
    AllKeep source writer key start turns := by
  intro earlier rest pair moment divided ran
  apply keeps earlier (rest ++ later) pair moment _ ran
  rw [divided, List.append_assoc]
  rfl

theorem run_append (start : PutsRace) (turns later : List PutsTurn) :
    start.run source writer key (turns ++ later) =
      (start.run source writer key turns).bind fun race => race.run source writer key later := by
  induction turns generalizing start with
  | nil => rfl
  | cons turn turns inductionHypothesis =>
      change (start.step source writer key turn).bind (fun next => next.run source writer key (turns ++ later)) =
        ((start.step source writer key turn).bind fun next => next.run source writer key turns).bind _
      cases start.step source writer key turn with
      | none => rfl
      | some next => exact inductionHypothesis next

/-- The last step of a run. -/
theorem run_concat (ran : start.run source writer key (turns ++ [turn]) = some next) :
    ∃ race, start.run source writer key turns = some race ∧ race.step source writer key turn = some next := by
  rw [run_append, Option.bind_eq_some_iff] at ran
  obtain ⟨race, ran, last⟩ := ran
  refine ⟨race, ran, ?_⟩
  unfold run at last
  rw [Option.bind_eq_some_iff] at last
  obtain ⟨other, stepped, isLast⟩ := last
  cases isLast
  exact stepped

/-- A step of the get leaves the store and the put alone. -/
theorem stepGet_same (stepped : race.stepGet key = some next) : next.node = race.node ∧ next.put = race.put := by
  unfold stepGet at stepped
  split at stepped
  next =>
    rw [Option.map_eq_some_iff] at stepped
    obtain ⟨found, _, isNext⟩ := stepped
    rw [← isNext]
    exact ⟨rfl, rfl⟩
  next =>
    cases stepped
    exact ⟨rfl, rfl⟩
  next =>
    cases stepped
    exact ⟨rfl, rfl⟩
  next =>
    cases stepped
    exact ⟨rfl, rfl⟩
  next =>
    cases stepped
    exact ⟨rfl, rfl⟩
  next => cases stepped

/-- A step of the writer, and what it leaves to the get. -/
structure WriterTurn (source : SegmentSource) (writer : ThreadId) (called : List KV) (race next : PutsRace) :
    Prop where
  putAt : PutAt source writer called next.node next.put
  step : WriterStep source race next
  get : next.get = race.get
  buffer : next.buffer = race.buffer

theorem step_writer (putAt : PutAt source writer called race.node race.put) (isWriter : turn ≠ .get)
    (keeps : ∀ pair, turn = .call pair → race.node.KeepsRecords pair)
    (stepped : race.step source writer key turn = some next) :
    WriterTurn source writer (called ++ putsOf [turn]) race next := by
  obtain ⟨node, put, get, buffer⟩ := race
  cases turn with
  | get => exact absurd rfl isWriter
  | call pair =>
      cases put with
      | idle =>
          unfold PutsRace.step at stepped
          simp only [Option.map_eq_some_iff] at stepped
          obtain ⟨staged, isStaged, isNext⟩ := stepped
          obtain ⟨after, step⟩ := Rests.stagePut putAt isStaged (keeps pair rfl) get buffer
          rw [← isNext]
          exact ⟨after, step, rfl, rfl⟩
      | running stage target => cases stepped
  | put =>
      cases put with
      | idle => cases stepped
      | running stage target =>
          obtain ⟨after, step⟩ := PutAt.publishNext putAt get buffer
          cases stepped
          rw [show putsOf [PutsTurn.put] = [] from rfl, List.append_nil]
          exact ⟨after, step, rfl, rfl⟩

/-- What holds of the store in a state of a run. -/
theorem run_putAt (rests : Rests source records start.node) (isIdle : start.put = .idle)
    (keeps : AllKeep source writer key start turns) (ran : start.run source writer key turns = some race) :
    PutAt source writer (records ++ putsOf turns) race.node race.put ∧
      SkipList.SameSearch race.node.slist start.node.slist := by
  induction turns using List.reverseRecOn generalizing race with
  | nil =>
      cases ran
      rw [isIdle, show putsOf [] = [] from rfl, List.append_nil]
      exact ⟨rests, SkipList.SameSearch.refl _⟩
  | append_singleton turns turn inductionHypothesis =>
      obtain ⟨before, ranBefore, stepped⟩ := run_concat ran
      obtain ⟨putAt, search⟩ := inductionHypothesis keeps.init ranBefore
      rw [putsOf_append, ← List.append_assoc]
      by_cases isGet : turn = .get
      · subst isGet
        obtain ⟨sameNode, samePut⟩ := stepGet_same stepped
        rw [sameNode, samePut, show putsOf [PutsTurn.get] = [] from rfl, List.append_nil]
        exact ⟨putAt, search⟩
      · have keepsNow : ∀ pair, turn = .call pair → before.node.KeepsRecords pair := by
          intro pair isCall
          exact keeps turns [] pair before (by rw [isCall]) ranBefore
        have writerTurn := step_writer putAt isGet keepsNow stepped
        exact ⟨writerTurn.putAt, writerTurn.step.search.trans search⟩

/-- A turn of the get or of the writer, as a step that the writer's rules allow. -/
theorem run_writerStep (rests : Rests source records start.node) (isIdle : start.put = .idle)
    (keeps : AllKeep source writer key start (turns ++ [turn]))
    (ran : start.run source writer key turns = some race) (stepped : race.step source writer key turn = some next) :
    WriterStep source race next := by
  by_cases isGet : turn = .get
  · subst isGet
    obtain ⟨sameNode, samePut⟩ := stepGet_same stepped
    apply writerStep_inPlace
    · rw [sameNode]
      exact SkipList.SameSearch.refl _
    · exact fun id => by rw [sameNode]
    · exact fun address reserved => sameNode ▸ reserved
    · exact fun r isPending => Or.inl (samePut ▸ isPending)
    · exact fun address _ => by rw [sameNode]
  · have keepsNow : ∀ pair, turn = .call pair → race.node.KeepsRecords pair := by
      intro pair isCall
      exact keeps turns [] pair race (by rw [isCall]) ran
    exact (step_writer (run_putAt rests isIdle keeps.init ran).1 isGet keepsNow stepped).step

/-! ### Chunks that were abandoned -/

/-- A search node names the chunk. -/
def Names (race : PutsRace) (address : RemotePointer) : Prop :=
  ∃ id ∈ SkipList.head :: race.node.chain, (race.node.slist.nodes id).dataNode = address

omit [Digest] in
/-- A chunk that was named still is, or is abandoned for good. -/
theorem WriterStep.abandons (step : WriterStep source race next) {address : RemotePointer}
    (named : race.Names address) : next.Names address ∨ Retired source next address := by
  obtain ⟨id, isMember, isPlace⟩ := named
  by_cases stays : (next.node.slist.nodes id).dataNode = (race.node.slist.nodes id).dataNode
  · refine Or.inl ⟨id, ?_, stays.trans isPlace⟩
    rw [chain_of_sameSearch step.search]
    exact isMember
  · rw [← isPlace]
    exact Or.inr ((step.orderly id isMember).moves stays).1

omit [Digest] in
/-- An abandoned chunk stays so, with what it holds. -/
theorem WriterStep.leaves (step : WriterStep source race next) {address : RemotePointer}
    (retired : Retired source race address) :
    Retired source next address ∧ next.node.remote address = race.node.remote address :=
  ⟨((step.orderly SkipList.head List.mem_cons_self).retired address retired).1, step.untouched address retired⟩

/-- What becomes of a chunk in the turns that follow. -/
theorem run_leaves (rests : Rests source records start.node) (isIdle : start.put = .idle) {more : List PutsTurn}
    (keeps : AllKeep source writer key start (turns ++ more))
    (ran : start.run source writer key turns = some race)
    (ranOn : start.run source writer key (turns ++ more) = some next) (address : RemotePointer) :
    (race.Names address → next.Names address ∨ Retired source next address) ∧
      (Retired source race address →
        Retired source next address ∧ next.node.remote address = race.node.remote address) := by
  induction more using List.reverseRecOn generalizing next with
  | nil =>
      rw [List.append_nil, ran] at ranOn
      cases ranOn
      exact ⟨Or.inl, fun retired => ⟨retired, rfl⟩⟩
  | append_singleton more turn inductionHypothesis =>
      rw [← List.append_assoc] at keeps ranOn
      obtain ⟨before, ranBefore, stepped⟩ := run_concat ranOn
      obtain ⟨named, abandoned⟩ := inductionHypothesis keeps.init ranBefore
      have step := run_writerStep rests isIdle keeps ranBefore stepped
      constructor
      · intro wasNamed
        rcases named wasNamed with stillNamed | retired
        · exact step.abandons stillNamed
        · exact Or.inr (step.leaves retired).1
      · intro retired
        obtain ⟨stays, same⟩ := abandoned retired
        obtain ⟨staysOn, sameOn⟩ := step.leaves stays
        exact ⟨staysOn, sameOn.trans same⟩

/-- A chunk that search nodes named in one state of the run, and no longer name in a later one, is
named by none from then on, and holds what it held. -/
def LeavesAbandoned (source : SegmentSource) (writer : ThreadId) (key : Bytes16) (start : PutsRace)
    (turns : List PutsTurn) : Prop :=
  ∀ (first second third rest : List PutsTurn) (naming ceased later : PutsRace) (address : RemotePointer),
    turns = first ++ second ++ third ++ rest → start.run source writer key first = some naming →
    start.run source writer key (first ++ second) = some ceased →
    start.run source writer key (first ++ second ++ third) = some later →
    naming.Names address → ¬ ceased.Names address →
    ¬ later.Names address ∧ later.node.remote address = ceased.node.remote address

theorem run_leavesAbandoned (rests : Rests source records start.node) (isIdle : start.put = .idle)
    (keeps : AllKeep source writer key start turns) : LeavesAbandoned source writer key start turns := by
  intro first second third rest naming ceased later address divided ranNaming ranCeased ranLater named notNamed
  rw [divided] at keeps
  have keepsLater := keeps.init
  have retired : Retired source ceased address := by
    rcases (run_leaves rests isIdle keepsLater.init ranNaming ranCeased address).1 named with still | retired
    · exact absurd still notNamed
    · exact retired
  obtain ⟨stays, same⟩ := (run_leaves rests isIdle keepsLater ranCeased ranLater address).2 retired
  refine ⟨?_, same⟩
  rintro ⟨id, isMember, isPlace⟩
  exact stays.1 id isMember isPlace

/-! ### What the get reads -/

/-- What the map had at a moment between the load of `data_node` and the fetch. -/
def ReadsMoment (source : SegmentSource) (writer : ThreadId) (key : Bytes16) (records : List KV) (start : PutsRace)
    (turns : List PutsTurn) (result : Option Bytes16) : Prop :=
  ∃ (earlier later : List PutsTurn) (moment : PutsRace), turns = earlier ++ later ∧
    start.run source writer key earlier = some moment ∧
    (∃ found address, moment.get = .addressed found address) ∧
    result = (recordOf keyOf key.val (published (records ++ putsOf earlier) moment.put)).map KV.value

/-- A state since the get has loaded the address. -/
def Seen (source : SegmentSource) (writer : ThreadId) (key : Bytes16) (start : PutsRace) (turns : List PutsTurn)
    (found : NodeId) (address : RemotePointer) (past : PutsRace) : Prop :=
  ∃ earlier later : List PutsTurn, turns = earlier ++ later ∧ start.run source writer key earlier = some past ∧
    past.get = .addressed found address

/-- What a get knows after each of its steps. -/
def GetSide (source : SegmentSource) (writer : ThreadId) (key : Bytes16) (records : List KV) (start : PutsRace)
    (turns : List PutsTurn) (race : PutsRace) : GetProgress → Prop
  | .called => True
  | .searched found => race.node.slist.fuzzySearch key.val = some found
  | .addressed found address =>
      race.node.slist.fuzzySearch key.val = some found ∧
        (nodeCell source found).Recalls (Seen source writer key start turns found address) race address
  | .fetched _ _ => ReadsMoment source writer key records start turns (race.buffer.find key.val)
  | .typed _ _ => ReadsMoment source writer key records start turns (race.buffer.find key.val)
  | .returned result => ReadsMoment source writer key records start turns result

theorem ReadsMoment.later (reads : ReadsMoment source writer key records start turns result) (turn : PutsTurn) :
    ReadsMoment source writer key records start (turns ++ [turn]) result := by
  obtain ⟨earlier, later, moment, divided, ran, addressed, value⟩ := reads
  refine ⟨earlier, later ++ [turn], moment, ?_, ran, addressed, value⟩
  rw [divided, List.append_assoc]

theorem Seen.later {found : NodeId} {address : RemotePointer} {past : PutsRace}
    (seen : Seen source writer key start turns found address past) (turn : PutsTurn) :
    Seen source writer key start (turns ++ [turn]) found address past := by
  obtain ⟨earlier, later, divided, ran, addressed⟩ := seen
  refine ⟨earlier, later ++ [turn], ?_, ran, addressed⟩
  rw [divided, List.append_assoc]

/-- A step of the writer takes nothing from what the get knows. -/
theorem GetSide.besideWriter (side : GetSide source writer key records start turns race race.get)
    (answers : Answers (published called race.put) race.node)
    (ran : start.run source writer key turns = some race) (step : WriterStep source race next)
    (sameBuffer : next.buffer = race.buffer) (turn : PutsTurn) :
    GetSide source writer key records start (turns ++ [turn]) next race.get := by
  cases isGet : race.get with
  | called => trivial
  | searched found =>
      rw [isGet] at side
      exact (step.search.fuzzySearch key.val).trans side
  | addressed found address =>
      rw [isGet] at side
      obtain ⟨isFound, recalls⟩ := side
      refine ⟨(step.search.fuzzySearch key.val).trans isFound, ?_⟩
      have isMember := (answers key found isFound).1
      apply recalls.step (step.orderly found isMember)
      · exact ⟨turns, [turn], rfl, ran, isGet⟩
      · exact fun past seen => seen.later turn
  | fetched found address =>
      rw [isGet] at side
      change ReadsMoment _ _ _ _ _ _ (next.buffer.find key.val)
      rw [sameBuffer]
      exact ReadsMoment.later side turn
  | typed address type =>
      rw [isGet] at side
      change ReadsMoment _ _ _ _ _ _ (next.buffer.find key.val)
      rw [sameBuffer]
      exact ReadsMoment.later side turn
  | returned result =>
      rw [isGet] at side
      exact ReadsMoment.later side turn

/-- The fetch reads what the node held at a moment since its address was loaded. -/
theorem reads_fetched (rests : Rests source records start.node) (isIdle : start.put = .idle)
    (keeps : AllKeep source writer key start turns) (ran : start.run source writer key turns = some race)
    {found : NodeId} {address : RemotePointer} (isGet : race.get = .addressed found address)
    (isFound : race.node.slist.fuzzySearch key.val = some found)
    (recalls : (nodeCell source found).Recalls (Seen source writer key start turns found address) race address)
    (buffer : LinkedNode) :
    ReadsMoment source writer key records start turns
      ((LinkedNode.overlay (sizeofNode .type16) (race.node.remote address) buffer).find key.val) := by
  have seenNow : Seen source writer key start turns found address race :=
    ⟨turns, [], (List.append_nil turns).symm, ran, isGet⟩
  obtain ⟨past, ⟨earlier, later, divided, ranPast, wasAddressed⟩, reads⟩ := recalls.reads seenNow
  change (race.node.remote address).entries = (past.node.imageOf found).entries at reads
  have nowSearch := (run_putAt rests isIdle keeps ran).2
  rw [divided] at keeps
  obtain ⟨putAt, pastSearch⟩ := run_putAt rests isIdle keeps.init ranPast
  have wasFound : past.node.slist.fuzzySearch key.val = some found := by
    rw [pastSearch.fuzzySearch, ← nowSearch.fuzzySearch]
    exact isFound
  obtain ⟨_, bounded, value⟩ := putAt.answers key found wasFound
  rw [← ComputeNode.next_of_entries reads] at bounded
  refine ⟨earlier, later, past, divided, ranPast, ⟨found, address, wasAddressed⟩, ?_⟩
  rw [← value, ← LinkedNode.find_of_entries reads]
  apply LinkedNode.find_overlay
  have covers := pairsOffset_le_sizeofNode LinkedNodeType.isData16
  change pairsOffset + 32 * 16 ≤ _ at covers
  omega

/-- A step of the get. -/
theorem GetSide.step (side : GetSide source writer key records start turns race race.get)
    (fetches : ∀ found address, race.get = .addressed found address → race.node.slist.fuzzySearch key.val = some found →
      (nodeCell source found).Recalls (Seen source writer key start turns found address) race address →
      ReadsMoment source writer key records start turns
        ((LinkedNode.overlay (sizeofNode .type16) (race.node.remote address) race.buffer).find key.val))
    (stepped : race.stepGet key = some next) :
    GetSide source writer key records start (turns ++ [.get]) next next.get := by
  unfold stepGet at stepped
  split at stepped
  next isGet =>
    rw [Option.map_eq_some_iff] at stepped
    obtain ⟨found, isFound, isNext⟩ := stepped
    subst isNext
    exact isFound
  next found isGet =>
    rw [isGet] at side
    cases stepped
    exact ⟨side, Or.inl rfl⟩
  next found address isGet =>
    rw [isGet] at side
    cases stepped
    exact ReadsMoment.later (fetches found address isGet side.1 side.2) .get
  next found address isGet =>
    rw [isGet] at side
    cases stepped
    exact ReadsMoment.later side .get
  next address type isGet =>
    rw [isGet] at side
    cases stepped
    change GetSide _ _ _ _ _ _ _ (if _ then GetProgress.returned _ else .called)
    split
    next => exact ReadsMoment.later side .get
    next => trivial
  next => cases stepped

theorem run_getSide (rests : Rests source records start.node) (isIdle : start.put = .idle)
    (isCalled : start.get = .called) (keeps : AllKeep source writer key start turns)
    (ran : start.run source writer key turns = some race) :
    GetSide source writer key records start turns race race.get := by
  induction turns using List.reverseRecOn generalizing race with
  | nil =>
      cases ran
      rw [isCalled]
      trivial
  | append_singleton turns turn inductionHypothesis =>
      obtain ⟨before, ranBefore, stepped⟩ := run_concat ran
      have side := inductionHypothesis keeps.init ranBefore
      by_cases isGet : turn = .get
      · subst isGet
        apply side.step _ stepped
        intro found address isAddressed isFound recalls
        exact reads_fetched rests isIdle keeps.init ranBefore isAddressed isFound recalls before.buffer
      · obtain ⟨putAt, _⟩ := run_putAt rests isIdle keeps.init ranBefore
        have keepsNow : ∀ pair, turn = .call pair → before.node.KeepsRecords pair := by
          intro pair isCall
          exact keeps turns [] pair before (by rw [isCall]) ranBefore
        have writerTurn := step_writer putAt isGet keepsNow stepped
        rw [writerTurn.get]
        exact side.besideWriter putAt.answers ranBefore writerTurn.step writerTurn.buffer turn

/-- A get beside the puts of another thread, none of which splits a node: if it returns, its result
is what the puts that were published by one moment of the get have left. Meanwhile no chunk that the
search nodes have ceased to name is changed. -/
theorem get_reads_a_moment (run : ComputeNode.StoreRun source writer node records) (flushed : node.remotePut = true)
    (buffer : LinkedNode) (keeps : AllKeep source writer key ⟨node, .idle, .called, buffer⟩ turns)
    (ran : PutsRace.run source writer key ⟨node, .idle, .called, buffer⟩ turns = some race) :
    (∀ result, race.get = .returned result →
      ReadsMoment source writer key records ⟨node, .idle, .called, buffer⟩ turns result) ∧
      LeavesAbandoned source writer key ⟨node, .idle, .called, buffer⟩ turns := by
  obtain ⟨serving, held⟩ := run.holds.flushed flushed
  have rests : Rests source records node := ⟨serving, run.clientRun.idle, held⟩
  refine ⟨fun result returned => ?_, run_leavesAbandoned rests rfl keeps⟩
  have side : GetSide source writer key records ⟨node, .idle, .called, buffer⟩ turns race race.get :=
    run_getSide rests rfl rfl keeps ran
  rw [returned] at side
  exact side

end DiStore.Cluster.PutsRace

/-! ### A get of a node that a put has locked -/

namespace DiStore.Cluster.PutsRace

open DiStore.Concurrency DiStore.DataLayer DiStore.Library DiStore.Memory DiStore.SearchLayer
open ComputeNode (keyOf)

section Trace

variable [Digest] {source : SegmentSource} {writer : ThreadId} {node : ComputeNode} {pair : KV} {key : Bytes16}

/-- Before the first transfer of a put, a get meets the store as it was. -/
theorem get_before_transfer (serving : ComputeNode.Serving source node) (idle : ComputeNode.Idle node)
    {staged : SteadyPut × ComputeNode} (isStaged : stagePut source writer node pair = some staged)
    (flushed : staged.2.remotePut = true) {found : NodeId} (isFound : node.slist.fuzzySearch key.val = some found)
    (accepted : SplitRace.Accepted (node.slist.nodes found).type (node.imageOf found)) (reader : ThreadId) :
    ∃ race result, run source writer key ⟨node, .idle, .called, staged.2.buffers reader 0⟩
        (.call pair :: List.replicate 5 .get) = some race ∧ race.get = .returned result := by
  obtain ⟨target, won, stage, _, begunPut⟩ := stagePut_begun serving idle isStaged
  have moved := begunPut.wonInsert.moved
  have alike := SplitRace.sameSearch_of_moved moved
  have stillFound : staged.2.slist.fuzzySearch key.val = some found := by
    rw [begunPut.begun.slist, alike.fuzzySearch]
    exact isFound
  have sameType : (staged.2.slist.nodes found).type = (node.slist.nodes found).type := by
    rw [begunPut.begun.slist, moved.type]
    split
    next isTarget => rw [isTarget]
    next => rfl
  have sameImage : staged.2.imageOf found = node.imageOf found := by
    unfold ComputeNode.imageOf
    rw [begunPut.begun.remote, begunPut.wonInsert.remote, begunPut.begun.slist, moved.dataNode]
    split
    next isTarget => rw [isTarget]
    next => rfl
  rw [← sameType, ← sameImage] at accepted
  obtain ⟨result, after, returned⟩ := (staged.2.get_accepted_iff reader flushed stillFound).mpr accepted
  obtain ⟨get, buffer, ran, isEnd⟩ := @get_alone _ source writer staged.2 key reader flushed found stillFound staged.1
  refine ⟨⟨staged.2, staged.1, get, buffer⟩, result, ?_, ?_⟩
  · unfold run
    have called : step source writer key ⟨node, .idle, .called, staged.2.buffers reader 0⟩ (.call pair) =
        some ⟨staged.2, staged.1, .called, staged.2.buffers reader 0⟩ := by
      unfold step
      simp only [isStaged, Option.map_some]
    rw [called]
    exact ran
  · rw [returned] at isEnd
    cases get with
    | returned other =>
        cases isEnd
        rfl
    | _ => cases isEnd

/-- What becomes of each node in a run of puts that keep the map. -/
theorem sealAll_of_storeAll {after : ComputeNode} {records : List KV}
    (reached : ComputeNode.storeAll node records = some after) (history : NodeId → SealedNode) :
    ∃ last, ComputeNode.sealAll (node, history) records = some (after, last) := by
  induction records generalizing node history with
  | nil =>
      cases reached
      exact ⟨history, rfl⟩
  | cons pair records inductionHypothesis =>
      unfold ComputeNode.storeAll at reached
      rw [List.foldlM_cons, Option.bind_eq_bind, Option.bind_eq_some_iff] at reached
      obtain ⟨next, isNext, later⟩ := reached
      by_cases keeps : node.KeepsMap pair
      · rw [if_pos keeps] at isNext
        split at isNext
        next outcome middle returned =>
          cases isNext
          obtain ⟨last, isLast⟩ := inductionHypothesis later (node.historyAfter next pair history)
          refine ⟨last, ?_⟩
          unfold ComputeNode.sealAll at isLast ⊢
          rw [List.foldlM_cons, Option.bind_eq_bind, Option.bind_eq_some_iff]
          refine ⟨(next, node.historyAfter next pair history), ?_, isLast⟩
          simp only [returned]
        next => cases isNext
      · rw [if_neg keeps] at isNext
        cases isNext

end Trace

attribute [local instance] Digests.source

/-- Eleven puts fill the local stage, and the last one flushes it. -/
def twelvePuts : List KV := ComputeNode.byteOffers 97 11 ++ [ComputeNode.filled 120 2]

def storeTwelve : Option ComputeNode := ComputeNode.storeAll ComputeNode.zeroClient twelvePuts

/-- A put of a stored key, and a get of this key that takes all its steps before the first transfer. -/
def lockedTurns : List PutsTurn := .call (ComputeNode.filled 97 9) :: List.replicate 5 .get

theorem lockedTurns_keep {node : ComputeNode} {buffer : LinkedNode}
    (keeps : node.KeepsRecords (ComputeNode.filled 97 9)) :
    AllKeep (.memoryNode 0) 0 (Bytes16.fill 97) ⟨node, .idle, .called, buffer⟩ lockedTurns := by
  intro earlier later pair moment divided ran
  cases earlier with
  | nil =>
      cases divided
      cases ran
      exact keeps
  | cons first rest =>
      have isGet : PutsTurn.call pair ∈ List.replicate 5 PutsTurn.get := by
        rw [(List.cons.inj divided).2]
        exact List.mem_append_right _ List.mem_cons_self
      cases List.eq_of_mem_replicate isGet

/-- The get returns what the map had at one of its moments. -/
theorem get_beside_locked :
    ∃ node buffer race result, storeTwelve = some node ∧
      run (.memoryNode 0) 0 (Bytes16.fill 97) ⟨node, .idle, .called, buffer⟩ lockedTurns = some race ∧
      race.get = .returned result ∧
      ReadsMoment (.memoryNode 0) 0 (Bytes16.fill 97) twelvePuts ⟨node, .idle, .called, buffer⟩ lockedTurns
        result := by
  have facts : storeTwelve.map (fun node =>
      (decide (node.remotePut = true ∧ node.slist.fuzzySearch (Bytes16.fill 97).val = some 1 ∧
          node.KeepsRecords (ComputeNode.filled 97 9)),
        (stagePut (.memoryNode 0) 0 node (ComputeNode.filled 97 9)).any fun staged => staged.2.remotePut)) =
      some (true, true) := by decide +kernel
  have inPlace : (ComputeNode.sealAll (ComputeNode.zeroClient, ComputeNode.zeroClient.sealedAnew) twelvePuts).map
      (fun state => decide ((state.2 1).added = [])) = some true := by decide +kernel
  obtain ⟨node, reached, isNode⟩ := Option.map_eq_some_iff.mp facts
  simp only [Prod.mk.injEq, decide_eq_true_eq, Option.any_eq_true] at isNode
  obtain ⟨⟨flushed, isFound, keeps⟩, staged, isStaged, stagedFlushed⟩ := isNode
  obtain ⟨history, isSealed⟩ := sealAll_of_storeAll reached ComputeNode.zeroClient.sealedAnew
  rw [isSealed] at inPlace
  have none := of_decide_eq_true (Option.some.inj inPlace)
  have storeRun : ComputeNode.StoreRun (.memoryNode 0) 0 node twelvePuts :=
    (ComputeNode.StoreRun.initialized 0 (fun _ => .zeroed) (fun _ _ => .zeroed) (fun _ => .zeroed) rfl).storeAll reached
  have sealRun := ComputeNode.SealRun.sealAll
    (.initialized 0 (fun _ => .zeroed) (fun _ _ => .zeroed) fun _ => .zeroed) isSealed
  have idle := storeRun.clientRun.idle
  have accepted : SplitRace.Accepted (node.slist.nodes 1).type (node.imageOf 1) := by
    cases sealRun.seals with
    | staging staging =>
        rw [staging.unflushed.staysLocal] at flushed
        cases flushed
    | guarded guarded =>
        have known := idle.closed.fuzzySearch_lt isFound
        rw [(guarded.sealedThen 1 known (by decide)).accepted_iff, SealedNode.image, none]
        rfl
  obtain ⟨serving, _⟩ := storeRun.holds.flushed flushed
  obtain ⟨race, result, ran, returned⟩ := get_before_transfer serving idle isStaged stagedFlushed isFound accepted 1
  exact ⟨node, _, race, result, reached, ran, returned,
    (get_reads_a_moment storeRun flushed _ (lockedTurns_keep keeps) ran).1 result returned⟩

end DiStore.Cluster.PutsRace
