import DiStore.Cluster.ClientRun
import DiStore.Cluster.FlushRefinement
import DiStore.Cluster.LocalMap

/-!
Contract: an `update` that runs beside the put that flushes.

Owns: the steps of the two calls around `local_mutex`, their interleavings, and when an
update that returned true can be read back afterwards.

`update` reads `remote_put` before it takes the mutex and does not read it again, so its
local branch can run on nodes that have been flushed already. `quick_put` reads the flag
under the mutex; from its lock to its return it is one step.
-/

set_option autoImplicit false

namespace DiStore.Cluster

open DiStore.Concurrency DiStore.DataLayer DiStore.Memory DiStore.SearchLayer

/-- How far `update` has got. -/
inductive UpdateProgress where
  | called
  /-- `remote_put` was read as false. -/
  | sawLocal
  /-- `local_mutex` is held. -/
  | locked
  /-- `remote_put` was read as true. -/
  | sawRemote
  | returned (updated : Bool)
deriving DecidableEq

/-- How far `quick_put` has got. -/
inductive QuickPutProgress where
  | called
  | locked
  | returned (stored : Bool)
deriving DecidableEq

/-- The arguments of the two calls, and what the flush draws. -/
structure RacingCalls where
  updater : ThreadId
  key : Bytes16
  value : Bytes16
  flusher : ThreadId
  newKey : Bytes16
  newValue : Bytes16
  draws : FlushDraws

structure FlushRace where
  node : ComputeNode
  update : UpdateProgress
  put : QuickPutProgress

inductive RaceEvent where
  | readRemotePut
  | lockForUpdate
  | updateLocally
  | updateRemotely
  | lockForPut
  | quickPut
deriving DecidableEq

namespace FlushRace

def start (node : ComputeNode) : FlushRace := ⟨node, .called, .called⟩

variable [Digest] (source : SegmentSource) (calls : RacingCalls)

/-- One step; `none` where its thread is somewhere else or has to wait for the mutex. -/
def step (race : FlushRace) : RaceEvent → Option FlushRace
  | .readRemotePut =>
      if race.update = .called then
        some { race with update := if race.node.remotePut then .sawRemote else .sawLocal }
      else none
  | .lockForUpdate =>
      if race.update = .sawLocal ∧ race.put ≠ .locked then some { race with update := .locked } else none
  | .updateLocally =>
      if race.update = .locked then
        let (updated, stage) := race.node.stage.update calls.key.val calls.value.val
        some { race with node := { race.node with stage := stage }, update := .returned updated }
      else none
  | .updateRemotely =>
      if race.update = .sawRemote then
        match race.node.update calls.updater calls.key.val calls.value.val .done with
        | (.returned updated, node) => some { race with node := node, update := .returned updated }
        | _ => none
      else none
  | .lockForPut =>
      if race.put = .called ∧ race.update ≠ .locked then some { race with put := .locked } else none
  | .quickPut =>
      if race.put = .locked then
        let (stored, node) :=
          race.node.quickPut source calls.flusher calls.newKey.val calls.newValue.val calls.draws
        some { race with node := node, put := .returned stored }
      else none

def run (race : FlushRace) : List RaceEvent → Option FlushRace
  | [] => some race
  | event :: events => (race.step source calls event).bind fun next => next.run events

/-- The update under the mutex, before the flush: it changes the node that a lookup reads
after the flush, or that node has the value already. -/
def KeptByFlush (stage : LocalStage) (key value : Bytes16) : Prop :=
  stage.anchors 0 ≠ stage.anchors 1 ∧ key.val ≠ stage.anchors 1 ∨
    key.val = stage.anchors 1 ∧ (stage.nodes 1).find key.val = some value

/-- What must hold before a step for an update that succeeds there to be read back later. -/
def KeepsUpdate (race : FlushRace) : RaceEvent → Prop
  | .updateLocally =>
      ((race.node.stage.nodes (race.node.stage.updateSlot calls.key.val)).find calls.key.val).isSome →
        if race.node.remotePut then race.node.lookup calls.key.val = some calls.value
        else KeptByFlush race.node.stage calls.key calls.value
  | .updateRemotely =>
      ∀ target, race.node.slist.fuzzySearch calls.key.val = some target →
        ((race.node.fetched calls.updater target).find calls.key.val).isSome →
          (LinkedNode.overlay (sizeofNode (race.node.fetched calls.updater target).type)
            (race.node.buffers calls.updater 1)
            (race.node.imageOf target)).find calls.key.val = some calls.value
  | _ => True

/-- Every step of a run keeps the update. -/
def AllKeepUpdate (race : FlushRace) : List RaceEvent → Prop
  | [] => True
  | event :: events =>
      race.KeepsUpdate calls event ∧
        ∀ next, race.step source calls event = some next → next.AllKeepUpdate events

end FlushRace

namespace ComputeNode

/-- The node after `initialize` and calls that all stayed local. -/
def afterCalls [Digest] (source : SegmentSource) (main : ThreadId) (memory : RemotePointer → LinkedNode)
    (buffers : ThreadId → Nat → LinkedNode) (heap : Fin 2 → LinkedNode) (calls : List LocalCall) :
    Option ComputeNode :=
  ((LocalStage.initial heap).calls calls).map fun reached =>
    { initialized source main memory buffers heap with stage := reached.1 }

variable [Digest] {source : SegmentSource} {node : ComputeNode}

theorem afterCalls_unflushed {main : ThreadId} {memory : RemotePointer → LinkedNode}
    {buffers : ThreadId → Nat → LinkedNode} {heap : Fin 2 → LinkedNode} {calls : List LocalCall}
    (reached : afterCalls source main memory buffers heap calls = some node) :
    Unflushed source node ∧ Idle node := by
  obtain ⟨⟨stage, answers⟩, ran, rfl⟩ := Option.map_eq_some_iff.mp reached
  constructor
  · apply initialized_unflushed
    exact LocalStage.shape_calls (LocalStage.shape_initial heap) ran
  · exact (initialized_idle source main memory buffers heap).congr rfl rfl

/-! ### The update before the flush -/

variable {key value newKey newValue : Bytes16}

/-- A flush finds the same nodes full after an update. -/
theorem quickPut_update_none (stage : LocalStage) :
    (stage.update key.val value.val).2.quickPut newKey.val newValue.val = none ↔
      stage.quickPut newKey.val newValue.val = none := by
  have anchors : (stage.update key.val value.val).2.anchors = stage.anchors := rfl
  have next : ∀ place, ((stage.update key.val value.val).2.nodes place).next = (stage.nodes place).next := by
    intro place
    by_cases here : place = stage.updateSlot key.val <;>
      simp [LocalStage.update, LocalStage.setNode, here]
  rw [LocalStage.quickPut_eq_none_iff, LocalStage.quickPut_eq_none_iff]
  unfold LocalStage.quickPutPickNode
  rw [anchors]
  split
  next => simp [LocalStage.setAnchor, next]
  next =>
    split
    next => split <;> simp [LocalStage.setAnchor, LocalStage.swapped, next]
    next =>
      split
      next => simp [LocalStage.setAnchor, next]
      next => split <;> simp [next]

/-- An update under the mutex, then the flush: the new value is read back exactly if both
calls mean the same node. -/
theorem update_then_flush_iff (unflushed : Unflushed source node) (thread : ThreadId) {draws : FlushDraws}
    (full : node.stage.quickPut newKey.val newValue.val = none)
    (largerDone : draws.largerWrite = .done) (smallerDone : draws.smallerWrite = .done)
    (found : ((node.stage.nodes (node.stage.updateSlot key.val)).find key.val).isSome) :
    (quickPut { node with stage := (node.stage.update key.val value.val).2 } source thread newKey.val
        newValue.val draws).2.lookup key.val = some value ↔
      FlushRace.KeptByFlush node.stage key value := by
  have shape := unflushed.shape
  have updated : Unflushed source { node with stage := (node.stage.update key.val value.val).2 } :=
    ⟨unflushed.slist, unflushed.sound, unflushed.headTaken, unflushed.staysLocal,
      LocalStage.shape_update shape _ _, unflushed.tag⟩
  obtain ⟨_, slot, cases, lookup⟩ := updated.lookup_flush thread ((quickPut_update_none node.stage).mpr full)
    largerDone smallerDone
  change slot = 0 ∧ ¬ node.stage.anchors 1 < newKey.val ∧ node.stage.anchors 0 ≠ node.stage.anchors 1 ∨
    slot = 1 ∧ node.stage.anchors 1 < newKey.val ∧ ¬ newKey.val < node.stage.anchors 0 at cases
  have maps := node.stage.find_nodes_update key value
  have anchors : (node.stage.update key.val value.val).2.anchors = node.stage.anchors := rfl
  have inNode := LinkedNode.holds_of_find found
  have notBelow : ¬ key.val < min newKey.val (node.stage.anchors 0) := by
    intro below
    exact shape.above _ key inNode (below.trans_le (min_le_right _ _))
  rw [lookup]
  clear lookup updated
  simp only [anchors, maps]
  rw [if_neg notBelow]
  unfold FlushRace.KeptByFlush LocalStage.updateSlot
  unfold LocalStage.updateSlot at found inNode
  by_cases twins : node.stage.anchors 0 = node.stage.anchors 1
  · -- the first node holds its anchor only, and the search passes it for every other key
    rcases cases with ⟨_, _, differ⟩ | ⟨isSecond, beyond, _⟩
    · exact absurd twins differ
    · subst isSecond
      by_cases above : node.stage.anchors 1 < key.val
      · have notAnchor : ¬ key.val = node.stage.anchors 1 := above.ne'
        have notHeld : ¬ (node.stage.nodes 0).Holds key := by
          intro held
          exact notAnchor ((shape.twin twins key held).symm.trans twins)
        have missing := (LinkedNode.find_eq_none_iff (shape.marked 0)).mpr notHeld
        simp [twins, notAnchor, above, missing]
      · rw [if_neg above] at inNode
        have isAnchor : key.val = node.stage.anchors 1 := (shape.twin twins key inNode).symm.trans twins
        have differs : key ≠ newKey := by
          rintro rfl
          exact above beyond
        simp [twins, isAnchor, differs]
  · by_cases isAnchor : key.val = node.stage.anchors 1
    · -- the second anchor is updated in the first node and read from the second one
      have picked : ¬ (slot = 1 ∧ key = newKey) := by
        rintro ⟨isSecond, rfl⟩
        rcases cases with ⟨isFirst, _⟩ | ⟨_, beyond, _⟩
        · exact absurd (isFirst.symm.trans isSecond) (by decide)
        · exact lt_irrefl _ (isAnchor ▸ beyond)
      have notPicked : ¬ ((1 : Fin 2) = slot ∧ key = newKey) := fun both => picked ⟨both.1.symm, both.2⟩
      rw [if_neg twins, isAnchor, if_neg (lt_irrefl _), if_neg notPicked, if_neg (lt_irrefl _)]
      simp [twins]
    · have sameNode : (if key.val < node.stage.anchors 1 then (0 : Fin 2) else 1) =
          if node.stage.anchors 1 < key.val then 1 else 0 := by
        rcases lt_trichotomy key.val (node.stage.anchors 1) with below | same | above
        · rw [if_pos below, if_neg below.not_gt]
        · exact absurd same isAnchor
        · rw [if_neg above.not_gt, if_pos above]
      obtain ⟨old, isOld⟩ := Option.isSome_iff_exists.mp found
      have kept : node.stage.anchors 0 ≠ node.stage.anchors 1 ∧ key.val ≠ node.stage.anchors 1 :=
        ⟨twins, isAnchor⟩
      simp only [if_neg twins, sameNode, isOld]
      refine iff_of_true ?_ (.inl kept)
      by_cases same : key = newKey
      · subst same
        simp
      · simp [same]

end ComputeNode

/-! ### Interleavings -/

/-- Lookups after the flush do not read the local nodes. -/
theorem ComputeNode.lookup_setStage [Digest] (node : ComputeNode) (stage : LocalStage) (key : Str) :
    lookup { node with stage := stage } key = node.lookup key := rfl

theorem ComputeNode.flushed_remotePut [Digest] {source : SegmentSource} {node : ComputeNode}
    (unflushed : Unflushed source node) (thread : ThreadId) {key value : Str} {draws : FlushDraws}
    (full : node.stage.quickPut key value = none)
    (largerDone : draws.largerWrite = .done) (smallerDone : draws.smallerWrite = .done) :
    (node.quickPut source thread key value draws).2.remotePut = true := by
  rw [quickPut_flushes unflushed full]
  obtain ⟨larger, smaller, after, flushedEq, flushed⟩ := flush_spec
    { node with stage := (node.stage.quickPutPickNode key).1 } thread unflushed.sound
    unflushed.headTaken (node.stage.quickPutPickNode key).2 key value largerDone smallerDone
  rw [flushedEq]
  exact flushed.remotePut

namespace FlushRace

variable [Digest] {source : SegmentSource} {calls : RacingCalls} {node : ComputeNode}

/-- Where two calls that started on `node` can be. `met` says that the steps so far keep the
update. -/
inductive Progressed (source : SegmentSource) (calls : RacingCalls) (node : ComputeNode) (met : Prop) :
    FlushRace → Prop where
  | neither {update : UpdateProgress} {put : QuickPutProgress}
      (notRead : update ≠ .sawRemote) (notUpdated : ∀ result, update ≠ .returned result)
      (notFlushed : ∀ result, put ≠ .returned result) (isMet : met) :
      Progressed source calls node met ⟨node, update, put⟩
  | updated {after : ComputeNode} {updated : Bool} {put : QuickPutProgress}
      (isAfter : after = { node with stage := (node.stage.update calls.key.val calls.value.val).2 })
      (isUpdated : updated = (node.stage.update calls.key.val calls.value.val).1)
      (notFlushed : ∀ result, put ≠ .returned result)
      (isMet : met ↔ (start node).KeepsUpdate calls .updateLocally) :
      Progressed source calls node met ⟨after, .returned updated, put⟩
  | flushed {after : ComputeNode} {update : UpdateProgress} {stored : Bool}
      (remotePut : after.remotePut = true) (idle : ComputeNode.Idle after)
      (notUpdated : ∀ result, update ≠ .returned result) (isMet : met) :
      Progressed source calls node met ⟨after, update, .returned stored⟩
  | both {after : ComputeNode} {updated stored : Bool}
      (isMet : (updated = true → after.lookup calls.key.val = some calls.value) ↔ met) :
      Progressed source calls node met ⟨after, .returned updated, .returned stored⟩

/-- An update through the search layer keeps its value exactly if its step says so. -/
theorem update_remotely_iff (idle : ComputeNode.Idle node) (remotePut : node.remotePut = true)
    {updated : Bool} {after : ComputeNode} {update : UpdateProgress} {put : QuickPutProgress}
    (returned : node.update calls.updater calls.key.val calls.value.val .done = (.returned updated, after)) :
    (updated = true → after.lookup calls.key.val = some calls.value) ↔
      KeepsUpdate calls ⟨node, update, put⟩ .updateRemotely := by
  unfold KeepsUpdate
  cases found : node.slist.fuzzySearch calls.key.val with
  | none =>
      have absent : node.update calls.updater calls.key.val calls.value.val .done =
          (.returned false, node) := by
        unfold ComputeNode.update
        rw [if_pos remotePut, found]
      rw [absent] at returned
      obtain ⟨isFalse, _⟩ := Prod.mk.inj returned
      cases isFalse
      simp
  | some target =>
      obtain ⟨state, updates, slist, _, _, remote⟩ := @ComputeNode.update_spec node calls.updater target _ idle
        remotePut calls.key.val found calls.value.val .done
      rw [updates] at returned
      obtain ⟨isResult, rfl⟩ := Prod.mk.inj returned
      have isUpdated := CallEnd.returned.inj isResult
      rw [LinkedNode.update_fst, ← LinkedNode.find_isSome_eq] at isUpdated
      have lookup : state.lookup calls.key.val =
          (LinkedNode.overlay (sizeofNode (node.fetched calls.updater target).type)
            (node.buffers calls.updater 1) (node.imageOf target)).find calls.key.val := by
        unfold ComputeNode.lookup
        rw [slist, found, Option.bind_some, remote, LinkedNode.update_type]
        rw [if_pos (show Completion.done.performed = true from rfl), Function.update_self]
        rfl
      rw [← isUpdated, lookup]
      simp

theorem progressed_start : Progressed source calls node True (start node) := by
  apply Progressed.neither
  · decide
  · intro result
    nofun
  · intro result
    nofun
  · trivial

section Steps

variable (unflushed : ComputeNode.Unflushed source node) (idle : ComputeNode.Idle node)
variable (full : node.stage.quickPut calls.newKey.val calls.newValue.val = none)
variable (largerDone : calls.draws.largerWrite = .done) (smallerDone : calls.draws.smallerWrite = .done)

include unflushed idle full largerDone smallerDone in
/-- One step, and its share of the condition. -/
theorem Progressed.step {met : Prop} {race next : FlushRace} {event : RaceEvent}
    (progressed : Progressed source calls node met race) (stepped : race.step source calls event = some next) :
    Progressed source calls node (met ∧ race.KeepsUpdate calls event) next := by
  have isLocal := unflushed.staysLocal
  have isRemote := ComputeNode.flushed_remotePut unflushed calls.flusher full largerDone smallerDone
  have idleFlushed := @ComputeNode.Idle.quickPut source node calls.flusher _ idle calls.newKey.val
    calls.newValue.val calls.draws
  cases progressed with
  | @neither update put notRead notUpdated notFlushed isMet =>
      cases event with
      | readRemotePut =>
          simp only [FlushRace.step, Option.ite_none_right_eq_some, isLocal] at stepped
          obtain ⟨_, isNext⟩ := stepped
          cases isNext
          exact .neither (by decide) (fun _ => nofun) notFlushed ⟨isMet, trivial⟩
      | lockForUpdate =>
          simp only [FlushRace.step, Option.ite_none_right_eq_some] at stepped
          obtain ⟨_, isNext⟩ := stepped
          cases isNext
          exact .neither (by decide) (fun _ => nofun) notFlushed ⟨isMet, trivial⟩
      | updateLocally =>
          simp only [FlushRace.step, Option.ite_none_right_eq_some] at stepped
          obtain ⟨_, isNext⟩ := stepped
          cases isNext
          exact .updated rfl rfl notFlushed (and_iff_right isMet)
      | updateRemotely =>
          simp only [FlushRace.step, if_neg notRead] at stepped
          cases stepped
      | lockForPut =>
          simp only [FlushRace.step, Option.ite_none_right_eq_some] at stepped
          obtain ⟨_, isNext⟩ := stepped
          cases isNext
          exact .neither notRead notUpdated (fun _ => nofun) ⟨isMet, trivial⟩
      | quickPut =>
          simp only [FlushRace.step, Option.ite_none_right_eq_some] at stepped
          obtain ⟨_, isNext⟩ := stepped
          cases isNext
          exact .flushed isRemote idleFlushed notUpdated ⟨isMet, trivial⟩
  | @updated after updated put isAfter isUpdated notFlushed isMet =>
      cases event with
      | lockForPut =>
          simp only [FlushRace.step, Option.ite_none_right_eq_some] at stepped
          obtain ⟨_, isNext⟩ := stepped
          cases isNext
          exact .updated isAfter isUpdated (fun _ => nofun) ((and_iff_left trivial).trans isMet)
      | quickPut =>
          simp only [FlushRace.step, Option.ite_none_right_eq_some] at stepped
          obtain ⟨_, isNext⟩ := stepped
          cases isNext
          refine .both (Iff.trans ?_ ((and_iff_left trivial).trans isMet).symm)
          have condition : (start node).KeepsUpdate calls .updateLocally ↔
              (((node.stage.nodes (node.stage.updateSlot calls.key.val)).find calls.key.val).isSome →
                KeptByFlush node.stage calls.key calls.value) := by
            simp [KeepsUpdate, start, isLocal]
          rw [condition, isUpdated, isAfter, LocalStage.update_reports]
          constructor
          · intro survives found
            exact (ComputeNode.update_then_flush_iff unflushed calls.flusher full largerDone smallerDone
              found).mp (survives found)
          · intro kept found
            exact (ComputeNode.update_then_flush_iff unflushed calls.flusher full largerDone smallerDone
              found).mpr (kept found)
      | _ => simp [FlushRace.step] at stepped
  | @flushed after update stored remotePut idleAfter notUpdated isMet =>
      cases event with
      | readRemotePut =>
          simp only [FlushRace.step, Option.ite_none_right_eq_some, remotePut] at stepped
          obtain ⟨_, isNext⟩ := stepped
          cases isNext
          exact .flushed remotePut idleAfter (fun _ => nofun) ⟨isMet, trivial⟩
      | lockForUpdate =>
          simp only [FlushRace.step, Option.ite_none_right_eq_some] at stepped
          obtain ⟨_, isNext⟩ := stepped
          cases isNext
          exact .flushed remotePut idleAfter (fun _ => nofun) ⟨isMet, trivial⟩
      | updateLocally =>
          simp only [FlushRace.step, Option.ite_none_right_eq_some] at stepped
          obtain ⟨_, isNext⟩ := stepped
          cases isNext
          refine .both (Iff.trans ?_ (and_iff_right isMet).symm)
          rw [LocalStage.update_reports, ComputeNode.lookup_setStage]
          simp only [KeepsUpdate, remotePut, if_true]
      | updateRemotely =>
          simp only [FlushRace.step, Option.ite_none_right_eq_some] at stepped
          obtain ⟨_, isNext⟩ := stepped
          split at isNext
          next returned =>
            cases isNext
            exact .both ((update_remotely_iff idleAfter remotePut returned).trans (and_iff_right isMet).symm)
          next => cases isNext
      | _ => simp [FlushRace.step] at stepped
  | both isMet =>
      cases event <;> simp [FlushRace.step] at stepped

include unflushed idle full largerDone smallerDone in
/-- A whole run, and the condition on all of its steps. -/
theorem Progressed.run {events : List RaceEvent} {met : Prop} {race final : FlushRace}
    (progressed : Progressed source calls node met race) (ran : race.run source calls events = some final) :
    Progressed source calls node (met ∧ race.AllKeepUpdate source calls events) final := by
  induction events generalizing race met with
  | nil =>
      cases Option.some.inj ran
      unfold AllKeepUpdate
      rw [and_true]
      exact progressed
  | cons event events inductionHypothesis =>
      obtain ⟨next, stepped, later⟩ := Option.bind_eq_some_iff.mp ran
      have after := inductionHypothesis
        (progressed.step unflushed idle full largerDone smallerDone stepped) later
      have isAll : (met ∧ race.AllKeepUpdate source calls (event :: events)) =
          ((met ∧ race.KeepsUpdate calls event) ∧ next.AllKeepUpdate source calls events) := by
        apply propext
        rw [and_assoc]
        refine and_congr_right fun _ => and_congr_right fun _ => ?_
        constructor
        · intro all
          exact all next stepped
        · intro here other isOther
          rw [stepped] at isOther
          exact Option.some.inj isOther ▸ here
      rw [isAll]
      exact after

end Steps

/-- After both calls have returned, an update that returned true can be read back exactly if
every step has kept it. -/
theorem acknowledged_update_survives_iff {main : ThreadId} {memory : RemotePointer → LinkedNode}
    {buffers : ThreadId → Nat → LinkedNode} {heap : Fin 2 → LinkedNode} {history : List LocalCall}
    (reached : ComputeNode.afterCalls source main memory buffers heap history = some node)
    (full : node.stage.quickPut calls.newKey.val calls.newValue.val = none)
    (largerDone : calls.draws.largerWrite = .done) (smallerDone : calls.draws.smallerWrite = .done)
    {events : List RaceEvent} {final : FlushRace}
    (ran : (start node).run source calls events = some final) {updated stored : Bool}
    (updateEnded : final.update = .returned updated) (putEnded : final.put = .returned stored) :
    (updated = true → final.node.lookup calls.key.val = some calls.value) ↔
      (start node).AllKeepUpdate source calls events := by
  obtain ⟨unflushed, idle⟩ := ComputeNode.afterCalls_unflushed reached
  have progressed := progressed_start.run unflushed idle full largerDone smallerDone ran
  rw [true_and] at progressed
  cases progressed with
  | neither _ notUpdated _ _ => exact absurd updateEnded (notUpdated updated)
  | updated _ _ notFlushed _ => exact absurd putEnded (notFlushed stored)
  | flushed _ _ notUpdated _ => exact absurd updateEnded (notUpdated updated)
  | both isMet =>
      cases updateEnded
      exact isMet

end FlushRace

end DiStore.Cluster

/-! ### Interleavings on concrete keys -/

namespace DiStore.Cluster.FlushRace

open DiStore.Concurrency DiStore.DataLayer DiStore.Memory DiStore.SearchLayer

attribute [local instance] Digests.source

/-- The eleven puts before the one that flushes. -/
def elevenPuts : Option ComputeNode :=
  ComputeNode.afterCalls (.memoryNode 0) 0 (fun _ => .zeroed) (fun _ _ => .zeroed) (fun _ => .zeroed)
    ((ComputeNode.byteRecords 97 11).map fun record => .put record.1 record.2)

/-- One client updates a stored key, the other one puts the twelfth. -/
def racingCalls : RacingCalls where
  updater := 1
  key := .fill 100
  value := .fill 9
  flusher := 0
  newKey := .fill 120
  newValue := .fill 2
  draws := ComputeNode.drawsDone

def updateFirst : List RaceEvent := [.readRemotePut, .lockForUpdate, .updateLocally, .lockForPut, .quickPut]

/-- The update waits for the mutex while the put flushes. -/
def flushFirst : List RaceEvent := [.readRemotePut, .lockForPut, .quickPut, .lockForUpdate, .updateLocally]

theorem update_before_flush_survives :
    ∃ node, elevenPuts = some node ∧ ∃ final,
      (start node).run (.memoryNode 0) racingCalls updateFirst = some final ∧
        final.node.lookup (Bytes16.fill 100).val = some (.fill 9) := by
  have facts : elevenPuts.map (fun node =>
      ((node.stage.quickPut (Bytes16.fill 120).val (Bytes16.fill 2).val).isNone,
        ((start node).run (.memoryNode 0) racingCalls updateFirst).map fun final =>
          (final.update, final.put))) =
      some (true, some (.returned true, .returned true)) := by decide +kernel
  have anchors : elevenPuts.map (fun node => (node.stage.anchors 0, node.stage.anchors 1, node.remotePut)) =
      some ((Bytes16.fill 97).val, (Bytes16.fill 98).val, false) := by decide +kernel
  obtain ⟨node, reached, isNode⟩ := Option.map_eq_some_iff.mp facts
  rw [reached, Option.map_some] at anchors
  simp only [Option.some.injEq, Prod.mk.injEq, Option.isNone_iff_eq_none, Option.map_eq_some_iff] at isNode anchors
  obtain ⟨full, final, ran, updateEnded, putEnded⟩ := isNode
  obtain ⟨first, second, isLocal⟩ := anchors
  have kept : KeptByFlush node.stage racingCalls.key racingCalls.value := by
    refine .inl ⟨?_, ?_⟩
    · rw [first, second]
      decide
    · rw [second]
      decide
  have allKeep : (start node).AllKeepUpdate (.memoryNode 0) racingCalls updateFirst := by
    simpa [updateFirst, AllKeepUpdate, KeepsUpdate, FlushRace.step, start, isLocal] using fun _ => kept
  exact ⟨node, reached, final, ran,
    (acknowledged_update_survives_iff reached full rfl rfl ran updateEnded putEnded).mpr allKeep rfl⟩

theorem update_after_flush_lost :
    ¬ ∀ node, elevenPuts = some node → ∀ events final,
      (start node).run (.memoryNode 0) racingCalls events = some final →
        ∀ stored, final.update = .returned true → final.put = .returned stored →
          final.node.lookup (Bytes16.fill 100).val = some (.fill 9) := by
  intro survives
  have facts : elevenPuts.map (fun node =>
      ((start node).run (.memoryNode 0) racingCalls flushFirst).map fun final =>
        decide (final.update = .returned true ∧ final.put = .returned true ∧
          final.node.lookup (Bytes16.fill 100).val = some (.fill 1))) =
      some (some true) := by decide +kernel
  obtain ⟨node, reached, isNode⟩ := Option.map_eq_some_iff.mp facts
  obtain ⟨final, ran, isFinal⟩ := Option.map_eq_some_iff.mp isNode
  obtain ⟨updateEnded, putEnded, lookup⟩ := of_decide_eq_true isFinal
  have survived := survives node reached flushFirst final ran true updateEnded putEnded
  rw [lookup] at survived
  exact absurd survived (by decide)

end DiStore.Cluster.FlushRace
