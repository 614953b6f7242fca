import DiStore.Cluster.ClientRun
import DiStore.Cluster.FlushRefinement

/-!
Contract: what `update` leaves in remote memory.

Owns: the law of `update` as its callers rely on it, and when the bytes that
`write_back_current` takes from the second slot satisfy it.

`update` changes the node it has fetched into the first slot. The second slot still holds
what the operation before it has left there, and that is what is written.
-/

set_option autoImplicit false

namespace DiStore.Cluster

open DiStore.Concurrency DiStore.DataLayer DiStore.Memory DiStore.SearchLayer

variable [Digest]

/-- One image has the header of another one, and maps one key differently. -/
structure Overwrites (before after : LinkedNode) (key value : Bytes16) : Prop where
  next : after.next = before.next
  type : after.type = before.type
  rlink : after.rlink = before.rlink
  maps : ∀ other : Bytes16,
    after.find other.val = if other = key then some value else before.find other.val

/-- The law for an image that the search names: what `update` returns, and the image
afterwards. -/
structure UpdateLaw (before after : LinkedNode) (key value : Bytes16) (result : Bool) : Prop where
  stored : (before.find key.val).isSome → result = true ∧ Overwrites before after key value
  absent : before.find key.val = none → result = false ∧ after = before

/-- Two images that no call tells apart: their headers, and what they map each key to. -/
structure SameNode (left right : LinkedNode) : Prop where
  next : left.next = right.next
  type : left.type = right.type
  rlink : left.rlink = right.rlink
  maps : ∀ key : Bytes16, left.find key.val = right.find key.val

/-- The image when the bytes of the second slot have been written over it, as many as its type has. -/
def writtenBack (image slot : LinkedNode) (performed : Bool) : LinkedNode :=
  if performed then LinkedNode.overlay (sizeofNode image.type) slot image else image

/-- What has to hold before the call, of the image, the bytes of it that the fetch reads, and the
second slot. -/
structure SecondSlotAgrees (image fetched slot : LinkedNode) (performed : Bool) (key value : Bytes16) : Prop where
  /-- The fetched bytes tell whether the key is stored. -/
  seen : (fetched.find key.val).isSome = (image.find key.val).isSome
  /-- The slot holds already what `LinkedNode::update` makes of the image. -/
  stored : (image.find key.val).isSome →
    SameNode (writtenBack image slot performed) (image.update key.val value.val).2
  /-- The slot holds the image. -/
  absent : image.find key.val = none → writtenBack image slot performed = image

variable {image fetched slot : LinkedNode} {key value : Bytes16}

theorem SameNode.trans {left middle right : LinkedNode} (first : SameNode left middle)
    (second : SameNode middle right) : SameNode left right where
  next := first.next.trans second.next
  type := first.type.trans second.type
  rlink := first.rlink.trans second.rlink
  maps key := (first.maps key).trans (second.maps key)

/-- The updated image is what the law asks for. -/
theorem overwrites_iff (isStored : (image.find key.val).isSome) {after : LinkedNode} :
    Overwrites image after key value ↔ SameNode after (image.update key.val value.val).2 := by
  have maps : ∀ other : Bytes16, (image.update key.val value.val).2.find other.val =
      if other = key then some value else image.find other.val := by
    intro other
    by_cases isKey : other = key
    · rw [if_pos isKey, isKey]
      exact LinkedNode.find_update_self isStored
    · rw [if_neg isKey]
      exact LinkedNode.find_update_of_ne isKey _
  constructor
  · intro overwrites
    refine ⟨?_, ?_, ?_, fun other => (overwrites.maps other).trans (maps other).symm⟩
    · rw [LinkedNode.update_next]
      exact overwrites.next
    · rw [LinkedNode.update_type]
      exact overwrites.type
    · rw [LinkedNode.update_rlink]
      exact overwrites.rlink
  · intro same
    refine ⟨?_, ?_, ?_, fun other => (same.maps other).trans (maps other)⟩
    · rw [same.next, LinkedNode.update_next]
    · rw [same.type, LinkedNode.update_type]
    · rw [same.rlink, LinkedNode.update_rlink]

/-- The law for the result that a search of the fetched bytes gives and for the image that the
write leaves. -/
theorem updateLaw_iff (performed : Bool) :
    UpdateLaw image (writtenBack image slot performed) key value (fetched.find key.val).isSome ↔
      SecondSlotAgrees image fetched slot performed key value := by
  constructor
  · intro law
    refine ⟨?_, fun isStored => (overwrites_iff isStored).mp (law.stored isStored).2,
      fun isAbsent => (law.absent isAbsent).2⟩
    cases isFound : image.find key.val with
    | none => exact (law.absent isFound).1
    | some _ =>
        apply (law.stored _).1
        rw [isFound]
        rfl
  · intro agrees
    refine ⟨fun isStored => ⟨agrees.seen.trans isStored, (overwrites_iff isStored).mpr (agrees.stored isStored)⟩,
      fun isAbsent => ⟨?_, agrees.absent isAbsent⟩⟩
    rw [agrees.seen, isAbsent]
    rfl

/-! ### Images of a data node -/

omit [Digest] in
/-- A data node whose records lie inside of it. -/
structure WellFormedNode (node : LinkedNode) : Prop where
  isData : node.type.IsData
  bounded : node.next ≤ node.type.capacity

/-- A write of a whole node leaves the header of the slot, and its records if they fit. -/
theorem sameNode_writtenBack (wellFormed : WellFormedNode image) (sameNext : slot.next = image.next) :
    SameNode (writtenBack image slot true) slot := by
  have nonempty := sizeofNode_ne_zero wellFormed.isData
  unfold writtenBack
  rw [if_pos rfl]
  refine ⟨LinkedNode.overlay_next nonempty, LinkedNode.overlay_type nonempty, LinkedNode.overlay_rlink nonempty,
    fun other => ?_⟩
  apply LinkedNode.find_overlay
  have covered := pairsOffset_le_sizeofNode wellFormed.isData
  have bounded := wellFormed.bounded
  rw [sameNext]
  omega

/-- An image that already maps the key to the value is updated. -/
theorem sameNode_update (isStored : image.find key.val = some value) :
    SameNode image (image.update key.val value.val).2 := by
  have isSome : (image.find key.val).isSome = true := by
    rw [isStored]
    rfl
  apply (overwrites_iff isSome).mp
  refine ⟨rfl, rfl, rfl, fun other => ?_⟩
  by_cases same : other = key
  · rw [if_pos same, same]
    exact isStored
  · rw [if_neg same]

namespace ComputeNode

variable {source : SegmentSource} {node : ComputeNode} {thread : ThreadId} {target : NodeId}

/-- The law of one call of `update`: `result` and `after` are what it returns and the state
it leaves. -/
structure RemoteUpdateLaw (node after : ComputeNode) (key value : Bytes16) (result : Bool) : Prop where
  named : ∀ target, node.slist.fuzzySearch key.val = some target →
    UpdateLaw (node.imageOf target) (after.imageOf target) key value result
  unnamed : node.slist.fuzzySearch key.val = none → result = false ∧ after.remote = node.remote

/-- Before a call of `update`, the second slot agrees with the image that is to change. -/
def UpdateAgrees (node : ComputeNode) (thread : ThreadId) (key value : Bytes16)
    (completion : Completion) : Prop :=
  ∀ target, node.slist.fuzzySearch key.val = some target →
    SecondSlotAgrees (node.imageOf target) (node.fetched thread target) (node.buffers thread 1)
      completion.performed key value

/-- The fetch reads every record of an image that has no more than sixteen. -/
theorem find_fetched (bounded : (node.imageOf target).next ≤ 16) (thread : ThreadId) (key : Bytes16) :
    (node.fetched thread target).find key.val = (node.imageOf target).find key.val := by
  apply LinkedNode.find_overlay
  have whole := pairsOffset_le_sizeofNode LinkedNodeType.isData16
  change (node.remote (node.slist.nodes target).dataNode).next ≤ 16 at bounded
  change pairsOffset + 32 * 16 ≤ _ at whole
  omega

/-- `update` after a flush, for a lone client: it keeps its law exactly if the second slot
of the client's buffer agrees with the node it changes. -/
theorem remote_update_iff (run : ClientRun source thread node) (remotePut : node.remotePut = true)
    (key value : Bytes16) (completion : Completion) :
    ∃ result after, node.update thread key.val value.val completion = (.returned result, after) ∧
      (RemoteUpdateLaw node after key value result ↔ UpdateAgrees node thread key value completion) := by
  cases found : node.slist.fuzzySearch key.val with
  | none =>
      refine ⟨false, node, ?_, ?_⟩
      · unfold update
        rw [if_pos remotePut, found]
      · constructor
        · intro _ target isFound
          rw [found] at isFound
          cases isFound
        · intro _
          refine ⟨fun target isFound => ?_, fun _ => ⟨rfl, rfl⟩⟩
          rw [found] at isFound
          cases isFound
  | some target =>
      obtain ⟨after, updated, slist, _, _, remote⟩ := @update_spec node thread target _ run.idle remotePut
        key.val found value.val completion
      have written : after.imageOf target =
          writtenBack (node.imageOf target) (node.buffers thread 1) completion.performed := by
        unfold imageOf writtenBack
        rw [slist, remote, LinkedNode.update_type]
        split
        next =>
          rw [Function.update_self]
          rfl
        next => rfl
      refine ⟨_, after, updated, ?_⟩
      rw [LinkedNode.update_fst, ← LinkedNode.find_isSome_eq]
      constructor
      · intro law other isFound
        have updateLaw := law.named other isFound
        have same : other = target := Option.some.inj (isFound.symm.trans found)
        subst same
        rw [written] at updateLaw
        exact (updateLaw_iff _).mp updateLaw
      · intro agrees
        refine ⟨fun other isFound => ?_, fun isUnnamed => ?_⟩
        · have same : other = target := Option.some.inj (isFound.symm.trans found)
          subst same
          rw [written]
          exact (updateLaw_iff _).mpr (agrees other isFound)
        · rw [found] at isUnnamed
          cases isUnnamed

end ComputeNode

end DiStore.Cluster

/-! ### Two nodes and one buffer -/

namespace DiStore.Cluster.ComputeNode

open DiStore.Concurrency DiStore.DataLayer DiStore.Memory DiStore.SearchLayer

attribute [local instance] Digests.source

/-- Twelve puts, the last of which flushes, and one put into the second remote node. -/
def putThirteen : Option ComputeNode :=
  putAll (.memoryNode 0) 0 drawsDone writesDone
    (initialized (.memoryNode 0) 0 (fun _ => .zeroed) (fun _ _ => .zeroed) fun _ => .zeroed)
    (byteRecords 97 11 ++ [(.fill 120, .fill 2), (.fill 121, .fill 3)])

theorem putThirteen_run {node : ComputeNode} (reached : putThirteen = some node) :
    ClientRun (.memoryNode 0) 0 node :=
  (ClientRun.initialized 0 (fun _ => .zeroed) (fun _ _ => .zeroed) fun _ => .zeroed).putAll reached

/-- After the put, its own node is in the second slot: an update that stores the same value
again does no harm. -/
theorem update_after_put_lawful :
    ∃ node, putThirteen = some node ∧ ∃ result after,
      node.update 0 (Bytes16.fill 121).val (Bytes16.fill 3).val .done = (.returned result, after) ∧
        RemoteUpdateLaw node after (.fill 121) (.fill 3) result := by
  have facts : putThirteen.map (fun node =>
      (decide (node.remotePut = true ∧ node.slist.fuzzySearch (Bytes16.fill 121).val = some 2 ∧
          (node.imageOf 2).find (Bytes16.fill 121).val = some (.fill 3)),
        decide ((node.imageOf 2).type = .type12 ∧ (node.imageOf 2).next = 12 ∧
          (node.buffers 0 1).type = .type12 ∧ (node.buffers 0 1).next = 12 ∧
            (node.buffers 0 1).rlink = (node.imageOf 2).rlink),
        decide ((node.buffers 0 1).entries = (node.imageOf 2).entries))) =
      some (true, true, true) := by decide +kernel
  obtain ⟨node, reached, isNode⟩ := Option.map_eq_some_iff.mp facts
  simp only [Prod.mk.injEq, decide_eq_true_eq] at isNode
  obtain ⟨⟨remotePut, found, isStored⟩, ⟨type, next, slotType, slotNext, rlink⟩, entries⟩ := isNode
  obtain ⟨result, after, updated, lawful⟩ := remote_update_iff (putThirteen_run reached) remotePut (.fill 121)
    (.fill 3) .done
  refine ⟨node, reached, result, after, updated, lawful.mpr fun target isFound => ?_⟩
  have same : target = 2 := Option.some.inj (isFound.symm.trans found)
  subst same
  have wellFormed : WellFormedNode (node.imageOf 2) := ⟨by rw [type]; trivial, by rw [type, next]; decide⟩
  refine ⟨?_, fun _ => ?_, fun isAbsent => ?_⟩
  · rw [find_fetched (wellFormed.bounded.trans (capacity_le_sixteen _))]
  · have inSlot : SameNode (node.buffers 0 1) (node.imageOf 2) :=
      ⟨slotNext.trans next.symm, slotType.trans type.symm, rlink, LinkedNode.find_of_entries entries⟩
    exact ((sameNode_writtenBack wellFormed (slotNext.trans next.symm)).trans inSlot).trans
      (sameNode_update isStored)
  · rw [isStored] at isAbsent
    cases isAbsent

/-- An update of the other remote node overwrites it with the node in the second slot. -/
theorem update_after_foreign_put_overwrites :
    ¬ ∀ node, putThirteen = some node → ∀ result after,
      node.update 0 (Bytes16.fill 97).val (Bytes16.fill 9).val .done = (.returned result, after) →
        RemoteUpdateLaw node after (.fill 97) (.fill 9) result := by
  intro lawful
  have facts : putThirteen.map (fun node =>
      decide (node.slist.fuzzySearch (Bytes16.fill 97).val = some 1 ∧
        ((node.imageOf 1).find (Bytes16.fill 97).val).isSome ∧
          (node.update 0 (Bytes16.fill 97).val (Bytes16.fill 9).val .done).1 = .returned true ∧
            ((node.update 0 (Bytes16.fill 97).val (Bytes16.fill 9).val .done).2.imageOf 1).find
              (Bytes16.fill 97).val = none)) =
      some true := by decide +kernel
  obtain ⟨node, reached, isNode⟩ := Option.map_eq_some_iff.mp facts
  obtain ⟨found, isStored, returned, lost⟩ := of_decide_eq_true isNode
  have law := lawful node reached true _ (Prod.ext returned rfl)
  have maps := (((law.named 1 found).stored isStored).2.maps (.fill 97)).symm
  rw [lost, if_pos rfl] at maps
  cases maps

end DiStore.Cluster.ComputeNode
