import DiStore.Cluster.LockMachine
import Mathlib.Tactic.IntervalCases

/-!
Contract: no two threads hold one node, so no image changes under its winner.

Owns: the invariant that ties `ctx` to how far the threads are, the ownership of
remote chunks, and the protection of the images that a winner has fetched.

A node's backward pointer is set when the node is linked and never changes.
-/

set_option autoImplicit false

namespace DiStore.Cluster

open DiStore.Concurrency DiStore.DataLayer DiStore.SearchLayer

theorem Operation.lockedSet_known {slist : SkipList} {operation : Operation} {node : NodeId}
    (known : operation.node < slist.count)
    (backs : ∀ pred, (slist.nodes operation.node).backward = some pred → pred < slist.count)
    (isMember : node ∈ operation.lockedSet slist) : node < slist.count := by
  unfold Operation.lockedSet at isMember
  split at isMember
  next =>
    rcases List.mem_cons.mp isMember with isTarget | isPred
    · rw [isTarget]
      exact known
    · exact backs node (Option.mem_toList.mp isPred)
  next =>
    rw [List.mem_singleton.mp isMember]
    exact known
  next =>
    rw [List.mem_singleton.mp isMember]
    exact known

theorem Progress.Won.operation {progress : Progress} {operation : Operation}
    (won : progress.Won operation) : progress.operation = some operation := by
  rcases won with won | won | won | won
  · rw [won]
    rfl
  · rw [won]
    rfl
  · rw [won]
    rfl
  · rw [won]
    rfl

namespace LockMachine

variable {state next : LockMachine} {thread other winner : ThreadId} {node : NodeId}
variable {operation : Operation}

/-- How the state may start: nobody is busy, no node is locked, and no two nodes have
the same image. -/
structure Started (state : LockMachine) : Prop where
  idle : ∀ thread, state.progress thread = .idle
  unlocked : ∀ node, state.ctx node = none
  backs : ∀ node < state.slist.count, ∀ pred, (state.slist.nodes node).backward = some pred →
    pred < state.slist.count
  apart : ∀ left < state.slist.count, ∀ right < state.slist.count, left ≠ right →
    (state.slist.nodes left).dataNode = (state.slist.nodes right).dataNode →
    (state.slist.nodes left).dataNode = nullptr
  allocated : ∀ node < state.slist.count, (state.slist.nodes node).dataNode ≠ nullptr →
    (state.slist.nodes node).dataNode ∈ state.allocated
  noChunks : ∀ thread, state.chunks thread = []
  noCopies : ∀ thread node, state.fetched thread node = none
  noRequests : ∀ thread, (state.contexts thread).requests = []
  noAnswers : state.answers = []

/-- Any interleaving of the steps of all threads. -/
inductive Reached : LockMachine → Prop where
  | start {state : LockMachine} (started : Started state) : Reached state
  | step {state next : LockMachine} (before : Reached state) {thread : ThreadId}
      (step : Step thread state next) : Reached next

/-! ### Locks -/

/-- `ctx` says who holds a node. -/
structure Locking (state : LockMachine) : Prop where
  holds : ∀ node thread, state.ctx node = some thread ↔ node ∈ state.locked thread
  known : ∀ thread operation, (state.progress thread).operation = some operation →
    operation.node < state.slist.count
  backs : ∀ node < state.slist.count, ∀ pred, (state.slist.nodes node).backward = some pred →
    pred < state.slist.count
  insert : ∀ thread operation, state.progress thread = .holdsTarget operation → operation.type = .insert
  pair : ∀ thread operation, (state.progress thread).Won operation → operation.type = .insert →
    ∃ pred, (state.slist.nodes operation.node).backward = some pred ∧ pred ≠ operation.node

theorem Started.locking (started : Started state) : Locking state where
  holds node thread := by
    rw [started.unlocked, locked, started.idle]
    simp [Progress.locked]
  known thread operation isOperation := by
    rw [started.idle] at isOperation
    cases isOperation
  backs := started.backs
  insert thread operation holds := by
    rw [started.idle] at holds
    cases holds
  pair thread operation won := by
    rw [started.idle] at won
    rcases won with won | won | won | won <;> cases won

theorem Locking.locked_known (locking : Locking state) (held : node ∈ state.locked thread) :
    node < state.slist.count := by
  have known := locking.known thread
  unfold locked at held
  cases isProgress : state.progress thread with
  | holdsTarget operation | losing operation | rollingBack operation =>
      rw [isProgress] at held known
      rw [List.mem_singleton.mp held]
      exact known operation rfl
  | won operation | fetching operation | serving operation | served operation =>
      rw [isProgress] at held known
      exact operation.lockedSet_known (known operation rfl) (locking.backs _ (known operation rfl)) held
  | halfReleased operation =>
      rw [isProgress] at held known
      exact locking.backs _ (known operation rfl) node (Option.mem_toList.mp held)
  | _ =>
      rw [isProgress] at held
      cases held

/-- What a step does to the locks. -/
inductive LockChange (thread : ThreadId) (before after : LockMachine) : Prop where
  | same (ctx : ∀ node, after.ctx node = before.ctx node)
      (locked : after.locked thread = before.locked thread)
  | acquire (node : NodeId) (free : before.ctx node = none)
      (ctx : ∀ other, after.ctx other = if other = node then some thread else before.ctx other)
      (locked : ∀ other, other ∈ after.locked thread ↔ other = node ∨ other ∈ before.locked thread)
  | release (node : NodeId) (held : node ∈ before.locked thread)
      (ctx : ∀ other, after.ctx other = if other = node then none else before.ctx other)
      (locked : ∀ other, other ∈ after.locked thread ↔ other ≠ node ∧ other ∈ before.locked thread)

theorem locked_setProgress_self (progress : Progress) :
    (state.setProgress thread progress).locked thread = progress.locked state.slist := by
  unfold locked
  rw [progress_setProgress, slist_setProgress, Function.update_self]

theorem locked_of_progress {progress : Progress} (isProgress : state.progress thread = progress) :
    state.locked thread = progress.locked state.slist := by
  rw [locked, isProgress]

theorem locked_setCtx (slist : SkipList) (node : NodeId) (ctx : Option ThreadId) (progress : Progress) :
    progress.locked (slist.setCtx node ctx) = progress.locked slist :=
  Progress.locked_congr fun operation _ => backward_setCtx slist node operation.node ctx

theorem mem_lockedSet_insert (slist : SkipList) {pred : NodeId} (isInsert : operation.type = .insert)
    (isPred : (slist.nodes operation.node).backward = some pred) :
    operation.lockedSet slist = [operation.node, pred] := by
  rw [Operation.lockedSet, isInsert]
  simp [isPred]

theorem lockedSet_of_ne (slist : SkipList) (notInsert : operation.type ≠ .insert) :
    operation.lockedSet slist = [operation.node] := by
  unfold Operation.lockedSet
  split
  next isInsert => exact absurd isInsert notInsert
  next => rfl
  next => rfl

/-- A step moves its own thread only. -/
theorem Step.progress_of_ne (step : Step thread state next) (differs : other ≠ thread) :
    next.progress other = state.progress other := by
  cases step
  all_goals first
    | rfl
    | exact Function.update_of_ne differs _ _

/-- The list keeps its links backward, but for a node that a step creates. -/
theorem Step.backward (step : Step thread state next) (known : node < state.slist.count) :
    (next.slist.nodes node).backward = (state.slist.nodes node).backward := by
  cases step
  case winTarget => exact backward_setCtx _ _ _ _
  case winPred => exact backward_setCtx _ _ _ _
  case rollBack => exact backward_setCtx _ _ _ _
  case releaseTarget => exact backward_setCtx _ _ _ _
  case releasePred => exact backward_setCtx _ _ _ _
  case relocate => exact backward_setDataNode _ _ _ _
  case link operation chunk anchor type _ _ _ =>
    obtain ⟨_, created⟩ := SkipList.linkBehind_created state.slist operation.node anchor chunk type
    have isOld : node ≠ state.slist.count := Nat.ne_of_lt known
    rw [created.backward]
    simp [isOld]
  all_goals rfl

theorem Step.locked_of_ne (locking : Locking state) (step : Step thread state next)
    (differs : other ≠ thread) : next.locked other = state.locked other := by
  unfold locked
  rw [step.progress_of_ne differs]
  apply Progress.locked_congr
  intro operation isOperation
  exact step.backward (locking.known other operation isOperation)

theorem ctx_move (node : NodeId) (ctx : Option ThreadId) (progress : Progress) (other : NodeId) :
    ((state.setCtx node ctx).setProgress thread progress).ctx other =
      if other = node then ctx else state.ctx other :=
  ctx_setCtx node other ctx

theorem ctx_unlock (node : NodeId) (progress : Progress) (other : NodeId) :
    ((state.unlock thread node).setProgress thread progress).ctx other =
      if other = node then none else state.ctx other :=
  ctx_setCtx node other none

/-- A step that moves a thread on without touching a lock. -/
theorem lockChange_move {moved : LockMachine} {before after : Progress}
    (isProgress : state.progress thread = before) (sameList : moved.slist = state.slist)
    (same : after.locked state.slist = before.locked state.slist) :
    LockChange thread state (moved.setProgress thread after) := by
  apply LockChange.same
  · intro node
    change (moved.slist.nodes node).ctx = _
    rw [sameList]
    rfl
  · rw [locked_setProgress_self, locked_of_progress isProgress, sameList, same]

theorem Step.lockChange (locking : Locking state) (step : Step thread state next) :
    LockChange thread state next := by
  cases step with
  | begin operation isIdle known => exact lockChange_move isIdle rfl rfl
  | drain isBefore isQueue => exact .same (fun _ => rfl) rfl
  | drained isDraining isEmpty => exact lockChange_move isDraining rfl rfl
  | bar isDrained isInsert => exact lockChange_move isDrained rfl rfl
  | setType isReady =>
      rcases isReady with isBarred | ⟨isDrained, _⟩
      · exact lockChange_move isBarred rfl rfl
      · exact lockChange_move isDrained rfl rfl
  | @winTarget operation isTyped isFree =>
      apply LockChange.acquire operation.node isFree (ctx_move operation.node (some thread) _)
      intro node
      rw [locked_setProgress_self, locked_of_progress isTyped]
      change node ∈ Progress.locked (state.slist.setCtx operation.node (some thread)) _ ↔ _
      rw [locked_setCtx]
      split
      next => simp [Progress.locked]
      next notInsert => simp [Progress.locked, lockedSet_of_ne _ notInsert]
  | loseTarget isTyped isTaken => exact lockChange_move isTyped rfl rfl
  | @winPred operation pred holds isPred isFree =>
      apply LockChange.acquire pred isFree (ctx_move pred (some thread) _)
      intro node
      rw [locked_setProgress_self, locked_of_progress holds]
      change node ∈ Progress.locked (state.slist.setCtx pred (some thread)) _ ↔ _
      rw [locked_setCtx]
      change node ∈ operation.lockedSet state.slist ↔ node = pred ∨ node ∈ [operation.node]
      rw [mem_lockedSet_insert _ (locking.insert thread operation holds) isPred]
      simp [or_comm]
  | losePred holds isPred isTaken => exact lockChange_move holds rfl rfl
  | shut isLosing => exact lockChange_move isLosing rfl rfl
  | @rollBack operation isRolling =>
      have held := locked_of_progress isRolling
      apply LockChange.release operation.node _ (ctx_unlock operation.node _)
      · intro node
        rw [locked_setProgress_self, held]
        simp [Progress.locked]
      · rw [held]
        exact List.mem_singleton_self _
  | openWindow isWon => exact lockChange_move isWon rfl rfl
  | fetch isFetching isLocked => exact .same (fun _ => rfl) rfl
  | closeWindow isFetching => exact lockChange_move isFetching rfl rfl
  | serve reply isServing isQueue => exact .same (fun _ => rfl) rfl
  | pushBack isServing isInsert isQueue => exact .same (fun _ => rfl) rfl
  | finish isServing isEmpty => exact lockChange_move isServing rfl rfl
  | giveUpServing isServing isInsert isQueue => exact lockChange_move isServing rfl rfl
  | allocate chunk isServed isNew notNull => exact .same (fun _ => rfl) rfl
  | write image isServed mayWrite => exact .same (fun _ => rfl) rfl
  | relocate isServed isInsert isChunk =>
      apply LockChange.same
      · exact fun node => nodeCtx_setDataNode _ _ _ _
      · exact Progress.locked_congr fun _ _ => backward_setDataNode _ _ _ _
  | @link operation chunk anchor type isServed isInsert isChunk =>
      obtain ⟨_, created⟩ := SkipList.linkBehind_created state.slist operation.node anchor chunk type
      apply LockChange.same
      · intro node
        by_cases isNew : node = state.slist.count
        · -- nobody holds a node that does not exist
          have free : state.ctx state.slist.count = none := by
            by_contra taken
            obtain ⟨holder, isHolder⟩ := Option.ne_none_iff_exists'.mp taken
            have held := (locking.holds _ _).mp isHolder
            exact absurd (locking.locked_known held) (lt_irrefl _)
          rw [isNew, free]
          exact created.ctx
        · exact (created.old node isNew).2.2.2
      · apply Progress.locked_congr
        intro other isOperation
        have isOld : other.node ≠ state.slist.count := (locking.known thread other isOperation).ne
        rw [created.backward]
        simp [isOld]
  | @releaseTarget operation isServed =>
      have held := locked_of_progress isServed
      apply LockChange.release operation.node _ (ctx_unlock operation.node _)
      · intro node
        rw [locked_setProgress_self, held]
        change node ∈ Progress.locked (state.slist.setCtx operation.node none) _ ↔ _
        rw [locked_setCtx]
        split
        next isInsert =>
          obtain ⟨pred, isPred, differs⟩ := locking.pair thread operation
            (.inr (.inr (.inr isServed))) isInsert
          rw [Progress.locked, Progress.locked, mem_lockedSet_insert _ isInsert isPred, isPred]
          simp only [Option.toList_some, List.mem_cons, List.not_mem_nil, or_false]
          constructor
          · rintro rfl
            exact ⟨differs, .inr rfl⟩
          · rintro ⟨notTarget, isTarget | isPred⟩
            · exact absurd isTarget notTarget
            · exact isPred
        next notInsert =>
          rw [Progress.locked, lockedSet_of_ne _ notInsert]
          simp [Progress.locked]
      · rw [held, Progress.locked, Operation.lockedSet]
        split <;> simp
  | @releasePred operation pred isHalf isPred =>
      have held := locked_of_progress isHalf
      apply LockChange.release pred _ (ctx_unlock pred _)
      · intro node
        rw [locked_setProgress_self, held]
        simp [Progress.locked, isPred]
      · rw [held, Progress.locked, isPred]
        exact List.mem_singleton_self _
  | reset isReleased => exact lockChange_move isReleased rfl rfl
  | otherType isLost differs => exact lockChange_move isLost rfl rfl
  | contend isLost same => exact lockChange_move isLost rfl rfl
  | leaveLoop isSpinning isOpen => exact lockChange_move isSpinning rfl rfl
  | grant isPassed positive => exact lockChange_move isPassed rfl rfl
  | refuse isPassed notPositive => exact lockChange_move isPassed rfl rfl
  | enqueue tag content isAdmitted => exact lockChange_move isAdmitted rfl rfl
  | leave isWaiting isDone => exact lockChange_move isWaiting rfl rfl

/-- The lists of a run only grow. -/
theorem Step.count_le (step : Step thread state next) : state.slist.count ≤ next.slist.count := by
  cases step
  case link operation chunk anchor type _ _ _ =>
    obtain ⟨_, created⟩ := SkipList.linkBehind_created state.slist operation.node anchor chunk type
    exact (created.count ▸ Nat.le_succ _ : state.slist.count ≤
      (state.slist.linkBehind operation.node anchor type chunk).2.count)
  all_goals exact le_rfl

/-- A node that a step creates is linked behind one that was there. -/
theorem Step.node_cases (locking : Locking state) (step : Step thread state next)
    (known : node < next.slist.count) :
    node < state.slist.count ∨
      ∃ target, (next.slist.nodes node).backward = some target ∧ target < state.slist.count := by
  cases step
  case link operation chunk anchor type isServed _ _ =>
    obtain ⟨_, created⟩ := SkipList.linkBehind_created state.slist operation.node anchor chunk type
    change node < (state.slist.linkBehind operation.node anchor type chunk).2.count at known
    rw [created.count] at known
    by_cases isNew : node = state.slist.count
    · refine .inr ⟨operation.node, ?_, locking.known thread operation (by rw [isServed]; rfl)⟩
      rw [created.backward, if_neg (by simp), if_pos isNew]
    · exact .inl (Nat.lt_of_le_of_ne (Nat.lt_succ_iff.mp known) isNew)
  all_goals exact .inl known

/-- A thread gets an operation by beginning one, or keeps the one it has. -/
theorem Step.operation_cases (step : Step thread state next)
    (isOperation : (next.progress thread).operation = some operation) :
    operation.node < state.slist.count ∨ (state.progress thread).operation = some operation := by
  cases step
  case begin begun isIdle known =>
    rw [progress_setProgress, Function.update_self] at isOperation
    obtain rfl := Option.some.inj isOperation
    exact .inl known
  case setType isReady =>
    rw [progress_setProgress, Function.update_self] at isOperation
    rcases isReady with isBarred | ⟨isDrained, _⟩
    · rw [isBarred]
      exact .inr isOperation
    · rw [isDrained]
      exact .inr isOperation
  case winTarget isTyped isFree =>
    rw [progress_setProgress, Function.update_self] at isOperation
    rw [isTyped]
    split at isOperation
    next => exact .inr isOperation
    next => exact .inr isOperation
  case releaseTarget isServed =>
    rw [progress_setProgress, Function.update_self] at isOperation
    rw [isServed]
    split at isOperation
    next => exact .inr isOperation
    next => exact .inr isOperation
  all_goals first
    | exact .inr isOperation
    | rw [progress_setProgress, Function.update_self] at isOperation
      simp_all [Progress.operation]

/-- Where a thread that holds only its target comes from. -/
theorem Step.holdsTarget_cases (step : Step thread state next)
    (holds : next.progress thread = .holdsTarget operation) :
    operation.type = .insert ∨ state.progress thread = .holdsTarget operation := by
  cases step
  case winTarget isTyped isFree =>
    rw [progress_setProgress, Function.update_self] at holds
    split at holds
    next isInsert =>
      obtain rfl := Progress.holdsTarget.inj holds
      exact .inl isInsert
    next => cases holds
  case releaseTarget isServed =>
    rw [progress_setProgress, Function.update_self] at holds
    split at holds
    next => cases holds
    next => cases holds
  all_goals first
    | exact .inr holds
    | rw [progress_setProgress, Function.update_self] at holds
      cases holds

/-- An insert wins with its second CAS, on another node than with its first. -/
theorem Step.won_cases (locking : Locking state) (step : Step thread state next)
    (won : (next.progress thread).Won operation) (isInsert : operation.type = .insert) :
    (state.progress thread).Won operation ∨
      ∃ pred, (state.slist.nodes operation.node).backward = some pred ∧ pred ≠ operation.node := by
  cases step
  case winPred target pred holds isPred isFree =>
    rw [progress_setProgress, Function.update_self] at won
    rcases won with won | won | won | won
    · obtain rfl := Progress.won.inj won
      refine .inr ⟨pred, isPred, ?_⟩
      rintro rfl
      -- the first CAS has taken the target
      have held : target.node ∈ state.locked thread := by
        rw [locked_of_progress holds]
        exact List.mem_singleton_self _
      rw [(locking.holds _ _).mpr held] at isFree
      cases isFree
    · cases won
    · cases won
    · cases won
  case winTarget isTyped isFree =>
    rw [progress_setProgress, Function.update_self] at won
    split at won
    next => rcases won with won | won | won | won <;> cases won
    next notInsert =>
      rcases won with won | won | won | won
      · obtain rfl := Progress.won.inj won
        exact absurd isInsert notInsert
      · cases won
      · cases won
      · cases won
  case releaseTarget isServed =>
    rw [progress_setProgress, Function.update_self] at won
    split at won
    next => rcases won with won | won | won | won <;> cases won
    next => rcases won with won | won | won | won <;> cases won
  all_goals first
    | exact .inl won
    | rw [progress_setProgress, Function.update_self] at won
      rcases won with won | won | won | won
      all_goals simp_all [Progress.Won]

theorem Locking.step (locking : Locking state) (step : Step thread state next) : Locking next := by
  constructor
  · intro node holder
    cases step.lockChange locking with
    | same ctx locked =>
        rw [ctx, locking.holds]
        by_cases isThread : holder = thread
        · rw [isThread, locked]
        · rw [step.locked_of_ne locking isThread]
    | acquire taken free ctx locked =>
        have nobody : ∀ holder, taken ∉ state.locked holder := by
          intro holder held
          rw [(locking.holds _ _).mpr held] at free
          cases free
        rw [ctx]
        by_cases isTaken : node = taken
        · rw [if_pos isTaken, isTaken]
          by_cases isThread : holder = thread
          · rw [isThread, locked]
            simp
          · rw [step.locked_of_ne locking isThread]
            exact iff_of_false (fun same => isThread (Option.some.inj same).symm) (nobody holder)
        · rw [if_neg isTaken, locking.holds]
          by_cases isThread : holder = thread
          · rw [isThread, locked]
            simp [isTaken]
          · rw [step.locked_of_ne locking isThread]
    | release freed held ctx locked =>
        rw [ctx]
        by_cases isFreed : node = freed
        · rw [if_pos isFreed, isFreed]
          by_cases isThread : holder = thread
          · rw [isThread, locked]
            simp
          · rw [step.locked_of_ne locking isThread]
            apply iff_of_false (fun same => by cases same)
            intro alsoHeld
            have first := (locking.holds _ _).mpr held
            rw [(locking.holds _ _).mpr alsoHeld] at first
            exact isThread (Option.some.inj first)
        · rw [if_neg isFreed, locking.holds]
          by_cases isThread : holder = thread
          · rw [isThread, locked]
            simp [isFreed]
          · rw [step.locked_of_ne locking isThread]
  · intro holder operation isOperation
    have grows := step.count_le
    by_cases isThread : holder = thread
    · rw [isThread] at isOperation
      rcases step.operation_cases isOperation with known | isOld
      · exact known.trans_le grows
      · exact (locking.known thread operation isOld).trans_le grows
    · rw [step.progress_of_ne isThread] at isOperation
      exact (locking.known holder operation isOperation).trans_le grows
  · intro node known pred isPred
    rcases step.node_cases locking known with isOld | ⟨target, isTarget, targetKnown⟩
    · rw [step.backward isOld] at isPred
      exact (locking.backs node isOld pred isPred).trans_le step.count_le
    · rw [isTarget] at isPred
      rw [← Option.some.inj isPred]
      exact targetKnown.trans_le step.count_le
  · intro holder operation holds
    by_cases isThread : holder = thread
    · rw [isThread] at holds
      rcases step.holdsTarget_cases holds with isInsert | isOld
      · exact isInsert
      · exact locking.insert thread operation isOld
    · rw [step.progress_of_ne isThread] at holds
      exact locking.insert holder operation holds
  · intro holder operation won isInsert
    by_cases isThread : holder = thread
    · rw [isThread] at won
      have known := step.operation_cases won.operation
      rcases step.won_cases locking won isInsert with isOld | ⟨pred, isPred, differs⟩
      · obtain ⟨pred, isPred, differs⟩ := locking.pair thread operation isOld isInsert
        exact ⟨pred, (step.backward (locking.known thread operation isOld.operation)).trans isPred, differs⟩
      · have target : operation.node < state.slist.count :=
          known.elim id (locking.known thread operation)
        exact ⟨pred, (step.backward target).trans isPred, differs⟩
    · rw [step.progress_of_ne isThread] at won
      obtain ⟨pred, isPred, differs⟩ := locking.pair holder operation won isInsert
      exact ⟨pred, (step.backward (locking.known holder operation won.operation)).trans isPred, differs⟩

/-! ### Images -/

def dataNode (state : LockMachine) (node : NodeId) : RemotePointer := (state.slist.nodes node).dataNode

/-- Every chunk has one owner, and a winner's copies are what remote memory holds. -/
structure Images (state : LockMachine) : Prop where
  apart : ∀ left < state.slist.count, ∀ right < state.slist.count, left ≠ right →
    state.dataNode left = state.dataNode right → state.dataNode left = nullptr
  allocated : ∀ node < state.slist.count, state.dataNode node ≠ nullptr → state.dataNode node ∈ state.allocated
  chunksKnown : ∀ thread, ∀ chunk ∈ state.chunks thread, chunk ∈ state.allocated ∧ chunk ≠ nullptr
  chunksUnused : ∀ thread, ∀ chunk ∈ state.chunks thread, ∀ node < state.slist.count,
    state.dataNode node ≠ chunk
  chunksApart : ∀ left right, left ≠ right → ∀ chunk ∈ state.chunks left, chunk ∉ state.chunks right
  chunksOnce : ∀ thread, (state.chunks thread).Nodup
  copies : ∀ thread node image, state.fetched thread node = some image →
    node ∈ state.locked thread ∧ state.remote (state.dataNode node) = image

theorem Started.images (started : Started state) : Images state where
  apart := started.apart
  allocated := started.allocated
  chunksKnown thread chunk isChunk := by
    rw [started.noChunks] at isChunk
    cases isChunk
  chunksUnused thread chunk isChunk := by
    rw [started.noChunks] at isChunk
    cases isChunk
  chunksApart left right _ chunk isChunk := by
    rw [started.noChunks] at isChunk
    cases isChunk
  chunksOnce thread := by
    rw [started.noChunks]
    exact List.nodup_nil
  copies thread node image isCopy := by
    rw [started.noCopies] at isCopy
    cases isCopy

/-- A step that touches no image. -/
theorem Images.frame (images : Images state) (count : next.slist.count = state.slist.count)
    (dataNode : ∀ node, next.dataNode node = state.dataNode node) (remote : next.remote = state.remote)
    (chunks : next.chunks = state.chunks) (allocated : next.allocated = state.allocated)
    (copies : ∀ thread node image, next.fetched thread node = some image →
      state.fetched thread node = some image ∧ node ∈ next.locked thread) : Images next where
  apart left leftKnown right rightKnown := by
    rw [count] at leftKnown rightKnown
    rw [dataNode, dataNode]
    exact images.apart left leftKnown right rightKnown
  allocated node known := by
    rw [count] at known
    rw [dataNode, allocated]
    exact images.allocated node known
  chunksKnown := by
    rw [chunks, allocated]
    exact images.chunksKnown
  chunksUnused thread chunk isChunk node known := by
    rw [chunks] at isChunk
    rw [count] at known
    rw [dataNode]
    exact images.chunksUnused thread chunk isChunk node known
  chunksApart := by
    rw [chunks]
    exact images.chunksApart
  chunksOnce := by
    rw [chunks]
    exact images.chunksOnce
  copies thread node image isCopy := by
    obtain ⟨isOld, locked⟩ := copies thread node image isCopy
    rw [dataNode, remote]
    exact ⟨locked, (images.copies thread node image isOld).2⟩

/-- A copy stays one of a locked node while its lock stays. -/
theorem Images.copies_locked (images : Images state) (locking : Locking state) (step : Step thread state next)
    (kept : ∀ other node image, next.fetched other node = some image →
      state.fetched other node = some image ∧ (state.ctx node = some other → next.ctx node = some other))
    (other : ThreadId) (node : NodeId) (image : LinkedNode) (isCopy : next.fetched other node = some image) :
    state.fetched other node = some image ∧ node ∈ next.locked other := by
  obtain ⟨isOld, stays⟩ := kept other node image isCopy
  have held := (images.copies other node image isOld).1
  have wasCtx := (locking.holds node other).mpr held
  exact ⟨isOld, ((locking.step step).holds node other).mp (stays wasCtx)⟩

/-- A step that changes no lock and no image. -/
theorem Images.move (images : Images state) (locking : Locking state) (step : Step thread state next)
    (slist : next.slist = state.slist) (remote : next.remote = state.remote)
    (chunks : next.chunks = state.chunks) (allocated : next.allocated = state.allocated)
    (fetched : next.fetched = state.fetched) : Images next := by
  apply images.frame (by rw [slist]) (fun node => by rw [dataNode, slist]; rfl) remote chunks allocated
  apply images.copies_locked locking step
  intro other node image isCopy
  rw [fetched] at isCopy
  refine ⟨isCopy, fun isCtx => ?_⟩
  rw [ctx, slist]
  exact isCtx

theorem Images.lock (images : Images state) (locking : Locking state) {taken : NodeId} {progress : Progress}
    (step : Step thread state ((state.setCtx taken (some thread)).setProgress thread progress))
    (free : state.ctx taken = none) :
    Images ((state.setCtx taken (some thread)).setProgress thread progress) := by
  refine images.frame rfl (fun node => dataNode_setCtx _ _ _ _) rfl rfl rfl ?_
  apply images.copies_locked locking step
  intro other node image isCopy
  refine ⟨isCopy, fun isCtx => ?_⟩
  have differs : node ≠ taken := by
    rintro rfl
    rw [free] at isCtx
    cases isCtx
  rw [ctx_move, if_neg differs]
  exact isCtx

theorem Images.unlock (images : Images state) (locking : Locking state) {freed : NodeId} {progress : Progress}
    (step : Step thread state ((state.unlock thread freed).setProgress thread progress))
    (held : freed ∈ state.locked thread) :
    Images ((state.unlock thread freed).setProgress thread progress) := by
  refine images.frame rfl (fun node => dataNode_setCtx _ _ _ _) rfl rfl rfl ?_
  apply images.copies_locked locking step
  intro other node image isCopy
  change Function.update state.fetched thread (Function.update (state.fetched thread) freed none) other node = _
    at isCopy
  have differs : state.ctx node = some other → node ≠ freed := by
    rintro isCtx rfl
    have isThread : other = thread := by
      rw [(locking.holds _ _).mpr held] at isCtx
      exact (Option.some.inj isCtx).symm
    rw [isThread, Function.update_self, Function.update_self] at isCopy
    cases isCopy
  constructor
  · by_cases isThread : other = thread
    · rw [isThread, Function.update_self] at isCopy
      by_cases isFreed : node = freed
      · rw [isFreed, Function.update_self] at isCopy
        cases isCopy
      · rw [Function.update_of_ne isFreed] at isCopy
        rw [isThread]
        exact isCopy
    · rwa [Function.update_of_ne isThread] at isCopy
  · intro isCtx
    rw [ctx_unlock, if_neg (differs isCtx)]
    exact isCtx

theorem Images.fetch (images : Images state) (held : node ∈ state.locked thread) :
    Images { state with
      fetched := Function.update state.fetched thread (Function.update (state.fetched thread) node
        (some (state.remote (state.slist.nodes node).dataNode))) } where
  apart := images.apart
  allocated := images.allocated
  chunksKnown := images.chunksKnown
  chunksUnused := images.chunksUnused
  chunksApart := images.chunksApart
  chunksOnce := images.chunksOnce
  copies other copied image isCopy := by
    change Function.update state.fetched thread _ other copied = _ at isCopy
    by_cases isThread : other = thread
    · rw [isThread, Function.update_self] at isCopy
      rw [isThread]
      by_cases isNode : copied = node
      · rw [isNode, Function.update_self] at isCopy
        rw [isNode]
        exact ⟨held, Option.some.inj isCopy⟩
      · rw [Function.update_of_ne isNode] at isCopy
        exact images.copies thread copied image isCopy
    · rw [Function.update_of_ne isThread] at isCopy
      exact images.copies other copied image isCopy

theorem Images.allocate (images : Images state) {chunk : RemotePointer} (isNew : chunk ∉ state.allocated)
    (notNull : chunk ≠ nullptr) :
    Images { state with
      chunks := Function.update state.chunks thread (chunk :: state.chunks thread)
      allocated := chunk :: state.allocated } := by
  have cases' : ∀ owner other, other ∈ Function.update state.chunks thread (chunk :: state.chunks thread) owner →
      (owner = thread ∧ other = chunk) ∨ other ∈ state.chunks owner := by
    intro owner other isChunk
    by_cases isThread : owner = thread
    · rw [isThread, Function.update_self] at isChunk
      rcases List.mem_cons.mp isChunk with isFirst | isOld
      · exact .inl ⟨isThread, isFirst⟩
      · rw [isThread]
        exact .inr isOld
    · rw [Function.update_of_ne isThread] at isChunk
      exact .inr isChunk
  constructor
  case apart => exact images.apart
  case allocated =>
    intro node known notNull
    exact List.mem_cons_of_mem _ (images.allocated node known notNull)
  case chunksKnown =>
    intro owner other isChunk
    rcases cases' owner other isChunk with ⟨_, rfl⟩ | isOld
    · exact ⟨List.mem_cons_self, notNull⟩
    · obtain ⟨known, otherNotNull⟩ := images.chunksKnown owner other isOld
      exact ⟨List.mem_cons_of_mem _ known, otherNotNull⟩
  case chunksUnused =>
    intro owner other isChunk node known isNode
    rcases cases' owner other isChunk with ⟨_, rfl⟩ | isOld
    · exact isNew (isNode ▸ images.allocated node known (fun isNull => notNull (isNode.symm.trans isNull)))
    · exact images.chunksUnused owner other isOld node known isNode
  case chunksApart =>
    intro left right differs other inLeft inRight
    rcases cases' left other inLeft with ⟨leftThread, rfl⟩ | leftOld
    · rcases cases' right other inRight with ⟨rightThread, _⟩ | rightOld
      · exact differs (leftThread.trans rightThread.symm)
      · exact isNew (images.chunksKnown right other rightOld).1
    · rcases cases' right other inRight with ⟨_, rfl⟩ | rightOld
      · exact isNew (images.chunksKnown left other leftOld).1
      · exact images.chunksApart left right differs other leftOld rightOld
  case chunksOnce =>
    intro owner
    change (Function.update state.chunks thread (chunk :: state.chunks thread) owner).Nodup
    by_cases isThread : owner = thread
    · rw [isThread, Function.update_self, List.nodup_cons]
      exact ⟨fun isOld => isNew (images.chunksKnown thread chunk isOld).1, images.chunksOnce thread⟩
    · rw [Function.update_of_ne isThread]
      exact images.chunksOnce owner
  case copies => exact images.copies

/-- What a winner may write to is nobody else's. -/
theorem Images.write_apart (images : Images state) (locking : Locking state) {address : RemotePointer}
    (mayWrite : state.MayWrite thread address) (differs : other ≠ thread) (held : node ∈ state.locked other)
    (notNull : address ≠ nullptr) : state.dataNode node ≠ address := by
  have known := locking.locked_known held
  rcases mayWrite with ⟨own, isOwn, isAddress⟩ | isChunk
  · intro same
    have notSame : node ≠ own := by
      rintro rfl
      have first := (locking.holds _ _).mpr held
      rw [(locking.holds _ _).mpr isOwn] at first
      exact differs (Option.some.inj first).symm
    have isNull := images.apart node known own (locking.locked_known isOwn) notSame (same.trans isAddress)
    exact notNull (same.symm.trans isNull)
  · exact images.chunksUnused thread address isChunk node known

theorem Images.write (images : Images state) (locking : Locking state) {address : RemotePointer}
    (image : LinkedNode) (mayWrite : state.MayWrite thread address) :
    Images (state.write thread address image) where
  apart := images.apart
  allocated := images.allocated
  chunksKnown := images.chunksKnown
  chunksUnused := images.chunksUnused
  chunksApart := images.chunksApart
  chunksOnce := images.chunksOnce
  copies other node copy isCopy := by
    change Function.update state.fetched thread _ other node = _ at isCopy
    change node ∈ state.locked other ∧
      (if address = nullptr then state.remote else Function.update state.remote address image)
        (state.dataNode node) = copy
    by_cases isThread : other = thread
    · rw [isThread, Function.update_self] at isCopy
      rw [isThread]
      split at isCopy
      next => cases isCopy
      next elsewhere =>
        obtain ⟨held, isImage⟩ := images.copies thread node copy isCopy
        refine ⟨held, ?_⟩
        split
        next => exact isImage
        next =>
          change state.dataNode node ≠ address at elsewhere
          rwa [Function.update_of_ne elsewhere]
    · rw [Function.update_of_ne isThread] at isCopy
      obtain ⟨held, isImage⟩ := images.copies other node copy isCopy
      refine ⟨held, ?_⟩
      split
      next => exact isImage
      next notNull => rwa [Function.update_of_ne (images.write_apart locking mayWrite isThread held notNull)]

/-- `chunks.erase chunk` for one thread. -/
theorem mem_erase_chunks {chunk : RemotePointer} {owner : ThreadId} {left : RemotePointer}
    (isChunk : left ∈ Function.update state.chunks thread ((state.chunks thread).erase chunk) owner) :
    left ∈ state.chunks owner := by
  by_cases isThread : owner = thread
  · rw [isThread, Function.update_self] at isChunk
    rw [isThread]
    exact List.mem_of_mem_erase isChunk
  · rwa [Function.update_of_ne isThread] at isChunk

theorem Images.not_mem_erase (images : Images state) {chunk : RemotePointer} (isChunk : chunk ∈ state.chunks thread)
    (owner : ThreadId) :
    chunk ∉ Function.update state.chunks thread ((state.chunks thread).erase chunk) owner := by
  intro still
  by_cases isThread : owner = thread
  · rw [isThread, Function.update_self] at still
    exact (images.chunksOnce thread).not_mem_erase still
  · rw [Function.update_of_ne isThread] at still
    exact images.chunksApart thread owner (Ne.symm isThread) chunk isChunk still

theorem Images.nodup_erase (images : Images state) (chunk : RemotePointer) (owner : ThreadId) :
    (Function.update state.chunks thread ((state.chunks thread).erase chunk) owner).Nodup := by
  by_cases isThread : owner = thread
  · rw [isThread, Function.update_self]
    exact (images.chunksOnce thread).erase chunk
  · rw [Function.update_of_ne isThread]
    exact images.chunksOnce owner

theorem Images.relocate (images : Images state) (locking : Locking state) {chunk : RemotePointer}
    (isServed : state.progress thread = .served operation)
    (isChunk : chunk ∈ state.chunks thread ∨ chunk = nullptr) :
    Images { state with
      slist := state.slist.setDataNode operation.node chunk
      chunks := Function.update state.chunks thread ((state.chunks thread).erase chunk)
      fetched := Function.update state.fetched thread
        (Function.update (state.fetched thread) operation.node none) } := by
  have target : operation.node < state.slist.count := locking.known thread operation (by rw [isServed]; rfl)
  have held : operation.node ∈ state.locked thread := by
    rw [locked_of_progress isServed, Progress.locked, Operation.lockedSet]
    split <;> simp
  have moved := dataNode_setDataNode state.slist operation.node
  have unused : ∀ node < state.slist.count, state.dataNode node = chunk → chunk = nullptr := by
    intro node known isNode
    rcases isChunk with isOwn | isNull
    · exact absurd isNode (images.chunksUnused thread chunk isOwn node known)
    · exact isNull
  constructor
  case apart =>
    intro left leftKnown right rightKnown differs same
    change ((state.slist.setDataNode operation.node chunk).nodes left).dataNode =
      ((state.slist.setDataNode operation.node chunk).nodes right).dataNode at same
    change ((state.slist.setDataNode operation.node chunk).nodes left).dataNode = nullptr
    rw [moved, moved] at same
    rw [moved]
    by_cases leftTarget : left = operation.node
    · rw [if_pos leftTarget] at same ⊢
      rw [if_neg (fun rightTarget => differs (leftTarget.trans rightTarget.symm))] at same
      exact unused right rightKnown same.symm
    · rw [if_neg leftTarget] at same ⊢
      by_cases rightTarget : right = operation.node
      · rw [if_pos rightTarget] at same
        rw [same]
        exact unused left leftKnown same
      · rw [if_neg rightTarget] at same
        exact images.apart left leftKnown right rightKnown differs same
  case allocated =>
    intro node known notNull
    change ((state.slist.setDataNode operation.node chunk).nodes node).dataNode ≠ nullptr at notNull
    change ((state.slist.setDataNode operation.node chunk).nodes node).dataNode ∈ state.allocated
    rw [moved] at notNull ⊢
    by_cases isTarget : node = operation.node
    · rw [if_pos isTarget] at notNull ⊢
      exact (images.chunksKnown thread chunk (isChunk.resolve_right notNull)).1
    · rw [if_neg isTarget] at notNull ⊢
      exact images.allocated node known notNull
  case chunksKnown => exact fun owner other isOther => images.chunksKnown owner other (mem_erase_chunks isOther)
  case chunksUnused =>
    intro owner other isOther node known
    change ((state.slist.setDataNode operation.node chunk).nodes node).dataNode ≠ other
    rw [moved]
    by_cases isTarget : node = operation.node
    · rw [if_pos isTarget]
      rintro rfl
      rcases isChunk with isOwn | isNull
      · exact images.not_mem_erase isOwn owner isOther
      · exact (images.chunksKnown owner chunk (mem_erase_chunks isOther)).2 isNull
    · rw [if_neg isTarget]
      exact images.chunksUnused owner other (mem_erase_chunks isOther) node known
  case chunksApart =>
    intro left right differs other inLeft inRight
    exact images.chunksApart left right differs other (mem_erase_chunks inLeft) (mem_erase_chunks inRight)
  case chunksOnce => exact images.nodup_erase chunk
  case copies =>
    intro other node image isCopy
    change Function.update state.fetched thread (Function.update (state.fetched thread) operation.node none)
      other node = _ at isCopy
    have notTarget : node ≠ operation.node ∧ state.fetched other node = some image := by
      by_cases isThread : other = thread
      · rw [isThread, Function.update_self] at isCopy
        by_cases isTarget : node = operation.node
        · rw [isTarget, Function.update_self] at isCopy
          cases isCopy
        · rw [Function.update_of_ne isTarget] at isCopy
          rw [isThread]
          exact ⟨isTarget, isCopy⟩
      · rw [Function.update_of_ne isThread] at isCopy
        refine ⟨?_, isCopy⟩
        rintro rfl
        have also := (images.copies other operation.node image isCopy).1
        have first := (locking.holds _ _).mpr also
        rw [(locking.holds _ _).mpr held] at first
        exact isThread (Option.some.inj first).symm
    obtain ⟨stillLocked, isImage⟩ := images.copies other node image notTarget.2
    constructor
    · change node ∈ Progress.locked (state.slist.setDataNode operation.node chunk) (state.progress other)
      rw [Progress.locked_congr fun _ _ => backward_setDataNode _ _ _ _]
      exact stillLocked
    · change state.remote ((state.slist.setDataNode operation.node chunk).nodes node).dataNode = image
      rw [moved, if_neg notTarget.1]
      exact isImage

theorem Images.link (images : Images state) (locking : Locking state) {chunk : RemotePointer} (anchor : Str)
    (type : LinkedNodeType) (isServed : state.progress thread = .served operation)
    (isChunk : chunk ∈ state.chunks thread) :
    Images { state with
      slist := (state.slist.linkBehind operation.node anchor type chunk).2
      chunks := Function.update state.chunks thread ((state.chunks thread).erase chunk) } := by
  obtain ⟨_, created⟩ := SkipList.linkBehind_created state.slist operation.node anchor chunk type
  generalize isList : (state.slist.linkBehind operation.node anchor type chunk).2 = slist at created
  have target : operation.node < state.slist.count := locking.known thread operation (by rw [isServed]; rfl)
  have old : ∀ node, node ≠ state.slist.count → (slist.nodes node).dataNode = state.dataNode node :=
    fun node isOld => (created.old node isOld).2.1
  have known' : ∀ node, node < slist.count → node = state.slist.count ∨
      (node ≠ state.slist.count ∧ node < state.slist.count) := by
    intro node known
    rw [created.count] at known
    by_cases isNew : node = state.slist.count
    · exact .inl isNew
    · exact .inr ⟨isNew, Nat.lt_of_le_of_ne (Nat.lt_succ_iff.mp known) isNew⟩
  constructor
  case apart =>
    intro left leftKnown right rightKnown differs same
    change (slist.nodes left).dataNode = (slist.nodes right).dataNode at same
    change (slist.nodes left).dataNode = nullptr
    rcases known' left leftKnown with leftNew | ⟨leftOld, leftKnown⟩
    · rcases known' right rightKnown with rightNew | ⟨rightOld, rightKnown⟩
      · exact absurd (leftNew.trans rightNew.symm) differs
      · rw [leftNew, created.dataNode, old right rightOld] at same
        exact absurd same.symm (images.chunksUnused thread chunk isChunk right rightKnown)
    · rcases known' right rightKnown with rightNew | ⟨rightOld, rightKnown⟩
      · rw [rightNew, created.dataNode, old left leftOld] at same
        exact absurd same (images.chunksUnused thread chunk isChunk left leftKnown)
      · rw [old left leftOld, old right rightOld] at same
        rw [old left leftOld]
        exact images.apart left leftKnown right rightKnown differs same
  case allocated =>
    intro node known notNull
    change (slist.nodes node).dataNode ≠ nullptr at notNull
    change (slist.nodes node).dataNode ∈ state.allocated
    rcases known' node known with isNew | ⟨isOld, oldKnown⟩
    · rw [isNew, created.dataNode]
      exact (images.chunksKnown thread chunk isChunk).1
    · rw [old node isOld] at notNull ⊢
      exact images.allocated node oldKnown notNull
  case chunksKnown => exact fun owner other isOther => images.chunksKnown owner other (mem_erase_chunks isOther)
  case chunksUnused =>
    intro owner other isOther node known
    change (slist.nodes node).dataNode ≠ other
    rcases known' node known with isNew | ⟨isOld, oldKnown⟩
    · rw [isNew, created.dataNode]
      rintro rfl
      exact images.not_mem_erase isChunk owner isOther
    · rw [old node isOld]
      exact images.chunksUnused owner other (mem_erase_chunks isOther) node oldKnown
  case chunksApart =>
    intro left right differs other inLeft inRight
    exact images.chunksApart left right differs other (mem_erase_chunks inLeft) (mem_erase_chunks inRight)
  case chunksOnce => exact images.nodup_erase chunk
  case copies =>
    intro other node image isCopy
    obtain ⟨held, isImage⟩ := images.copies other node image isCopy
    have isOld : node ≠ state.slist.count := (locking.locked_known held).ne
    constructor
    · change node ∈ Progress.locked slist (state.progress other)
      rw [Progress.locked_congr]
      · exact held
      · intro operation isOperation
        have operationOld : operation.node ≠ state.slist.count := (locking.known other operation isOperation).ne
        rw [created.backward]
        simp [operationOld]
    · change state.remote (slist.nodes node).dataNode = image
      rw [old node isOld]
      exact isImage

theorem Images.step (images : Images state) (locking : Locking state) (step : Step thread state next) :
    Images next := by
  have taken := step
  cases step with
  | winTarget isTyped isFree => exact images.lock locking taken isFree
  | winPred holds isPred isFree => exact images.lock locking taken isFree
  | rollBack isRolling =>
      apply images.unlock locking taken
      rw [locked_of_progress isRolling]
      exact List.mem_singleton_self _
  | releaseTarget isServed =>
      apply images.unlock locking taken
      rw [locked_of_progress isServed, Progress.locked, Operation.lockedSet]
      split <;> simp
  | releasePred isHalf isPred =>
      apply images.unlock locking taken
      rw [locked_of_progress isHalf, Progress.locked, isPred]
      exact List.mem_singleton_self _
  | fetch isFetching isLocked => exact images.fetch isLocked
  | allocate chunk isServed isNew notNull => exact images.allocate isNew notNull
  | write image isServed mayWrite => exact images.write locking image mayWrite
  | relocate isServed isInsert isChunk => exact images.relocate locking isServed isChunk
  | link anchor type isServed isInsert isChunk => exact images.link locking anchor type isServed isChunk
  | _ => exact images.move locking taken rfl rfl rfl rfl rfl

theorem Reached.locking (reached : Reached state) : Locking state := by
  induction reached with
  | start started => exact started.locking
  | step _ step ih => exact ih.step step

theorem Reached.images (reached : Reached state) : Images state := by
  induction reached with
  | start started => exact started.images
  | step before step ih => exact ih.step before.locking step

/-! ### Protection -/

theorem Progress.Won.locked_eq (won : (state.progress thread).Won operation) :
    state.locked thread = operation.lockedSet state.slist := by
  rcases won with won | won | won | won
  · exact locked_of_progress won
  · exact locked_of_progress won
  · exact locked_of_progress won
  · exact locked_of_progress won

/-- While a thread that has won has not released: no other such thread has locked one of
its nodes, no other thread may write to the image of one, no step of another thread
changes one, and the winner's copy of one is what remote memory holds. -/
structure Protected (state : LockMachine) : Prop where
  exclusive : ∀ left right leftOperation rightOperation, left ≠ right →
    (state.progress left).Won leftOperation → (state.progress right).Won rightOperation →
    ∀ node ∈ leftOperation.lockedSet state.slist, node ∉ rightOperation.lockedSet state.slist
  unwritten : ∀ winner operation, (state.progress winner).Won operation →
    ∀ writer, writer ≠ winner → ∀ address, state.MayWrite writer address → address ≠ nullptr →
      ∀ node ∈ operation.lockedSet state.slist, state.dataNode node ≠ address
  unchanged : ∀ winner operation, (state.progress winner).Won operation →
    ∀ writer next, writer ≠ winner → Step writer state next → ∀ node ∈ operation.lockedSet state.slist,
      next.dataNode node = state.dataNode node ∧
        next.remote (state.dataNode node) = state.remote (state.dataNode node)
  current : ∀ winner operation, (state.progress winner).Won operation →
    ∀ node ∈ operation.lockedSet state.slist, ∀ image, state.fetched winner node = some image →
      state.remote (state.dataNode node) = image

/-- Two threads never hold one node, halfway through acquiring or releasing included. -/
theorem Locking.exclusive (locking : Locking state) (differs : other ≠ thread)
    (held : node ∈ state.locked thread) : node ∉ state.locked other := by
  intro also
  have first := (locking.holds node thread).mpr held
  rw [(locking.holds node other).mpr also] at first
  exact differs (Option.some.inj first)

/-- The steps of another thread leave the image of a locked node where and as it is. -/
theorem Images.unchanged (images : Images state) (locking : Locking state) (step : Step thread state next)
    (differs : other ≠ thread) (held : node ∈ state.locked other) :
    next.dataNode node = state.dataNode node ∧
      next.remote (state.dataNode node) = state.remote (state.dataNode node) := by
  cases step with
  | winTarget isTyped isFree => exact ⟨dataNode_setCtx _ _ _ _, rfl⟩
  | winPred holds isPred isFree => exact ⟨dataNode_setCtx _ _ _ _, rfl⟩
  | rollBack isRolling => exact ⟨dataNode_setCtx _ _ _ _, rfl⟩
  | releaseTarget isServed => exact ⟨dataNode_setCtx _ _ _ _, rfl⟩
  | releasePred isHalf isPred => exact ⟨dataNode_setCtx _ _ _ _, rfl⟩
  | @write operation address image isServed mayWrite =>
      refine ⟨rfl, ?_⟩
      change (if address = nullptr then state.remote else Function.update state.remote address image)
        (state.dataNode node) = _
      split
      next => rfl
      next notNull =>
        rw [Function.update_of_ne (images.write_apart locking mayWrite differs held notNull)]
  | @relocate operation chunk isServed isInsert isChunk =>
      have own : operation.node ∈ state.locked thread := by
        rw [locked_of_progress isServed, Progress.locked, Operation.lockedSet]
        split <;> simp
      have notTarget : node ≠ operation.node := by
        rintro rfl
        exact locking.exclusive differs own held
      refine ⟨?_, rfl⟩
      change ((state.slist.setDataNode operation.node chunk).nodes node).dataNode = _
      rw [dataNode_setDataNode, if_neg notTarget]
      rfl
  | @link operation chunk anchor type isServed isInsert isChunk =>
      obtain ⟨_, created⟩ := SkipList.linkBehind_created state.slist operation.node anchor chunk type
      exact ⟨(created.old node (locking.locked_known held).ne).2.1, rfl⟩
  | _ => exact ⟨rfl, rfl⟩

/-- The locks protect the images of a winner's node and of its predecessor. -/
theorem locks_protect_images (reached : Reached state) : Protected state := by
  have locking := reached.locking
  have images := reached.images
  constructor
  · intro left right leftOperation rightOperation differs leftWon rightWon node inLeft
    rw [← Progress.Won.locked_eq leftWon] at inLeft
    rw [← Progress.Won.locked_eq rightWon]
    exact locking.exclusive (Ne.symm differs) inLeft
  · intro winner operation won writer differs address mayWrite notNull node isLocked
    rw [← Progress.Won.locked_eq won] at isLocked
    exact images.write_apart locking mayWrite (Ne.symm differs) isLocked notNull
  · intro winner operation won writer next differs step node isLocked
    rw [← Progress.Won.locked_eq won] at isLocked
    exact images.unchanged locking step (Ne.symm differs) isLocked
  · intro winner operation won node isLocked image isCopy
    exact (images.copies winner node image isCopy).2

/-- The threads find the list of a flush. -/
def afterFlush (slist : SkipList) (remote : RemotePointer → LinkedNode) (allocated : List RemotePointer) :
    LockMachine where
  slist := slist
  contexts := fun _ => .initial
  progress := fun _ => .idle
  replies := fun _ => none
  remote := remote
  fetched := fun _ _ => none
  chunks := fun _ => []
  allocated := allocated
  answers := []

theorem started_afterFlush {slist : SkipList} {fakeHead firstRemote secondRemote : RemotePointer}
    {first second : Str} {firstType secondType : LinkedNodeType}
    (twoNodes : slist.TwoNodes fakeHead first second firstRemote secondRemote firstType secondType)
    (headBack : (slist.nodes SkipList.head).backward = none)
    (once : [fakeHead, firstRemote, secondRemote].Nodup) (remote : RemotePointer → LinkedNode) :
    Started (afterFlush slist remote [fakeHead, firstRemote, secondRemote]) where
  idle _ := rfl
  unlocked := twoNodes.ctx
  backs node known pred isPred := by
    change node < slist.count at known
    change (slist.nodes node).backward = some pred at isPred
    change pred < slist.count
    rw [twoNodes.count] at known ⊢
    have bound : ∀ choice : Prop, [Decidable choice] → ∀ left right : Nat, left < 3 → right < 3 →
        (if choice then left else right) < 3 := by
      intro choice _ left right leftBound rightBound
      split
      next => exact leftBound
      next => exact rightBound
    interval_cases node
    · rw [headBack] at isPred
      cases isPred
    · rw [twoNodes.backward.1] at isPred
      rw [← Option.some.inj isPred]
      exact bound _ _ _ (by decide) (by decide)
    · rw [twoNodes.backward.2] at isPred
      rw [← Option.some.inj isPred]
      exact bound _ _ _ (by decide) (by decide)
  apart left leftKnown right rightKnown differs same := by
    change left < slist.count at leftKnown
    change right < slist.count at rightKnown
    change (slist.nodes left).dataNode = (slist.nodes right).dataNode at same
    rw [twoNodes.count] at leftKnown rightKnown
    have headNode : (slist.nodes 0).dataNode = fakeHead := twoNodes.headNode
    have firstNode := twoNodes.dataNode.1
    have secondNode := twoNodes.dataNode.2
    simp only [List.nodup_cons, List.mem_cons, List.not_mem_nil, or_false, not_or] at once
    obtain ⟨⟨headFirst, headSecond⟩, firstSecond, _⟩ := once
    exfalso
    interval_cases left <;> interval_cases right <;> simp_all
  allocated node known _ := by
    change node < slist.count at known
    change (slist.nodes node).dataNode ∈ [fakeHead, firstRemote, secondRemote]
    rw [twoNodes.count] at known
    have headNode : (slist.nodes 0).dataNode = fakeHead := twoNodes.headNode
    have firstNode := twoNodes.dataNode.1
    have secondNode := twoNodes.dataNode.2
    interval_cases node
    · rw [headNode]
      simp
    · rw [firstNode]
      simp
    · rw [secondNode]
      simp
  noChunks _ := rfl
  noCopies _ _ := rfl
  noRequests _ := rfl
  noAnswers := rfl

/-- The threads after a flush of two nodes. -/
def flushed : LockMachine :=
  afterFlush (((SkipList.empty 64).insert [1] 1024 .type10 1).insert [5] 2048 .type12 2)
    (fun _ => .fresh .type16 .zeroed) [64, 1024, 2048]

theorem flushed_reached : Reached flushed := by
  obtain ⟨_, _, _, twoNodes⟩ := SkipList.insert_two_spec 64 (by decide : ([1] : Str) ≤ [5]) 1024 2048
    .type10 .type12 Nat.one_pos Nat.two_pos
  exact .start (started_afterFlush twoNodes (by decide) (by decide) _)

/-- One thread inserts at the first node and another updates the second. -/
theorem two_winners_protected : ∃ state, (state.progress 0).Won ⟨.insert, 1⟩ ∧
    (state.progress 1).Won ⟨.update, 2⟩ ∧ state.fetched 0 SkipList.head ≠ none ∧ Protected state := by
  have begun := flushed_reached.step (.begin ⟨.insert, 1⟩ rfl (by decide) : Step 0 flushed _)
  have drained := begun.step (.drained rfl rfl : Step 0 _ _)
  have barred := drained.step (.bar rfl rfl : Step 0 _ _)
  have typed := barred.step (.setType (.inl rfl) : Step 0 _ _)
  have target := typed.step (.winTarget rfl rfl : Step 0 _ _)
  have both := target.step (.winPred rfl rfl rfl : Step 0 _ _)
  have opened := both.step (.openWindow rfl : Step 0 _ _)
  have fetched := opened.step (.fetch rfl (List.mem_cons_of_mem _ List.mem_cons_self) : Step 0 _ _)
  have otherBegun := fetched.step (.begin ⟨.update, 2⟩ rfl (by decide) : Step 1 _ _)
  have otherDrained := otherBegun.step (.drained rfl rfl : Step 1 _ _)
  have otherTyped := otherDrained.step (.setType (.inr ⟨rfl, rfl⟩) : Step 1 _ _)
  have otherWon := otherTyped.step (.winTarget rfl rfl : Step 1 _ _)
  refine ⟨_, .inr (.inl rfl), .inl rfl, ?_, locks_protect_images otherWon⟩
  exact fun isNone => by cases isNone

end LockMachine

end DiStore.Cluster
