import DiStore.Cluster.Handovers
import DiStore.Library.WaitGraph

/-!
Contract: threads that put and update never wait in a circle.

Owns: the waits of the threads that lost a lock for the contexts they found there, the
two loops in which a thread is blocked, and the steps by which a thread that holds a
lock comes to release it.

Does not own: whether a blocked thread is served in the end. A winner that has returned
answers what is left in its queue when its thread makes its next call.
-/

set_option autoImplicit false

namespace DiStore.Cluster

open DiStore.Concurrency DiStore.DataLayer DiStore.Library DiStore.SearchLayer

/-- The context that a loser has found, until the loser leaves. -/
def Progress.awaits : Progress → Option ThreadId
  | .lost _ winner => some winner
  | .spinning _ winner => some winner
  | .passed _ winner => some winner
  | .admitted _ winner => some winner
  | .waiting _ winner => some winner
  | _ => none

/-- From the first lock to the return: the steps that are left when the queue holds so
many requests, all that is fetched, allocated and written apart. -/
def Progress.remaining (requests : Nat) : Progress → Nat
  | .holdsTarget _ => requests + 7
  | .won _ => requests + 6
  | .fetching _ => requests + 5
  | .serving _ => requests + 4
  | .served _ => 3
  | .halfReleased _ => 2
  | .released _ => 1
  | .losing _ => 2
  | .rollingBack _ => 1
  | _ => 0

/-- `put` names a node behind another one, and nothing is deleted. -/
def Operation.Rooted (operation : Operation) (slist : SkipList) : Prop :=
  operation.type = .update ∨ operation.type = .insert ∧ ∃ pred, (slist.nodes operation.node).backward = some pred

theorem Progress.remaining_le (progress : Progress) (requests : Nat) :
    progress.remaining requests ≤ requests + 7 := by
  cases progress <;> simp [remaining]

/-- A thread that has locked something has not returned. -/
theorem Progress.remaining_of_locked {progress : Progress} {slist : SkipList} {node : NodeId} (requests : Nat)
    (isLocked : node ∈ progress.locked slist) : 0 < progress.remaining requests := by
  cases progress <;> first | exact Nat.succ_pos _ | cases isLocked

/-- Who waits holds nothing. -/
theorem Progress.locked_of_awaits {progress : Progress} {winner : ThreadId} (slist : SkipList)
    (awaits : progress.awaits = some winner) : progress.locked slist = [] := by
  cases progress <;> first | rfl | cases awaits

namespace LockMachine

variable {state next : LockMachine} {thread other winner : ThreadId} {operation : Operation}

/-! ### Waits -/

def WaitsFor (state : LockMachine) (thread winner : ThreadId) : Prop := (state.progress thread).awaits = some winner

/-- `while (max_depth == -1)`, or `while (!is_done)` before the answer. -/
def Blocked (state : LockMachine) (thread winner : ThreadId) : Prop :=
  (∃ operation, state.progress thread = .spinning operation winner ∧ (state.contexts winner).maxDepth = -1) ∨
    ∃ operation, state.progress thread = .waiting operation winner ∧ state.replies thread = none

theorem Blocked.waitsFor (blocked : state.Blocked thread winner) : state.WaitsFor thread winner := by
  unfold WaitsFor
  rcases blocked with ⟨operation, isSpinning, _⟩ | ⟨operation, isWaiting, _⟩
  · rw [isSpinning]
    rfl
  · rw [isWaiting]
    rfl

/-- A thread starts to wait when its first CAS finds a context. -/
theorem Step.awaits_cases (step : Step thread state next) (waits : next.WaitsFor other winner) :
    state.WaitsFor other winner ∨
      (other = thread ∧ ∃ operation, state.progress thread = .typed operation ∧
        state.ctx operation.node = some winner ∧ next = state.setProgress thread (.lost operation winner)) := by
  unfold WaitsFor at waits ⊢
  by_cases isThread : other = thread
  · subst isThread
    cases step
    case loseTarget operation found isTyped isTaken =>
      rw [progress_setProgress, Function.update_self] at waits
      cases waits
      exact .inr ⟨rfl, operation, isTyped, isTaken, rfl⟩
    case winTarget =>
      rw [progress_setProgress, Function.update_self] at waits
      split at waits <;> cases waits
    case releaseTarget =>
      rw [progress_setProgress, Function.update_self] at waits
      split at waits <;> cases waits
    all_goals first
      | exact .inl waits
      | rw [progress_setProgress, Function.update_self] at waits
        simp_all [Progress.awaits]
  · rw [step.progress_of_ne isThread] at waits
    exact .inl waits

/-- The thread whose context is found at a node holds that node, so it waits for
nobody itself. -/
theorem Locking.winner_free (locking : Locking state) {node : NodeId} (isTaken : state.ctx node = some winner) :
    ¬ state.WaitsFor winner other := by
  intro waits
  have held := (locking.holds node winner).mp isTaken
  rw [locked, Progress.locked_of_awaits state.slist waits] at held
  cases held

theorem Started.waitsEnd (started : Started state) : WaitsEnd state.WaitsFor := by
  apply WaitsEnd.of_empty
  intro waiter awaited waits
  rw [WaitsFor, started.idle] at waits
  cases waits

/-- A step adds at most one wait, for a thread that waits for nobody. -/
theorem Step.waitsEnd (locking : Locking state) (step : Step thread state next) (ends : WaitsEnd state.WaitsFor) :
    WaitsEnd next.WaitsFor := by
  by_cases isNew : ∃ operation winner, state.progress thread = .typed operation ∧
      state.ctx operation.node = some winner ∧ next = state.setProgress thread (.lost operation winner)
  · rcases isNew with ⟨operation, winner, isTyped, isTaken, rfl⟩
    have differs : winner ≠ thread := by
      rintro rfl
      have held := (locking.holds _ _).mp isTaken
      rw [locked_of_progress isTyped] at held
      cases held
    apply ends.add thread winner
    · intro awaited waits
      rw [WaitsFor, progress_setProgress, Function.update_of_ne differs] at waits
      exact locking.winner_free isTaken waits
    · intro waiter awaited waits
      by_cases isThread : waiter = thread
      · rw [WaitsFor, isThread, progress_setProgress, Function.update_self] at waits
        exact .inr ⟨isThread, (Option.some.inj waits).symm⟩
      · rw [WaitsFor, progress_setProgress, Function.update_of_ne isThread] at waits
        exact .inl waits
  · apply ends.mono
    intro waiter awaited waits
    rcases step.awaits_cases waits with isOld | ⟨_, operation, begins⟩
    · exact isOld
    · exact absurd ⟨operation, awaited, begins⟩ isNew

theorem Reached.waitsEnd (reached : Reached state) : WaitsEnd state.WaitsFor := by
  induction reached with
  | start started => exact started.waitsEnd
  | step before step inductionHypothesis => exact step.waitsEnd before.locking inductionHypothesis

/-! ### Threads that can go on -/

/-- Calls begin at nodes behind others. -/
def Admissible (thread : ThreadId) (state next : LockMachine) : Prop :=
  ∀ operation, state.progress thread = .idle → next.progress thread = .draining operation →
    operation.Rooted state.slist

theorem Admissible.of_busy (isBusy : state.progress thread ≠ .idle) : Admissible thread state next :=
  fun _ isIdle _ => absurd isIdle isBusy

theorem Admissible.of_begin (rooted : operation.Rooted state.slist) :
    Admissible thread state (state.setProgress thread (.draining operation)) := by
  intro begun _ begins
  rw [progress_setProgress, Function.update_self] at begins
  cases begins
  exact rooted

/-- Every operation that is under way is one that an admissible call began. -/
def AllRooted (state : LockMachine) : Prop :=
  ∀ thread operation, (state.progress thread).operation = some operation → operation.Rooted state.slist

theorem rooted_later (rooted : operation.Rooted state.slist) (step : Step thread state next)
    (known : operation.node < state.slist.count) : operation.Rooted next.slist := by
  unfold Operation.Rooted at rooted ⊢
  rw [step.backward known]
  exact rooted

/-- An operation stays the one it was until the thread is idle. -/
theorem Step.operation_begun (step : Step thread state next)
    (isOperation : (next.progress thread).operation = some operation) :
    (state.progress thread).operation = some operation ∨
      state.progress thread = .idle ∧ next.progress thread = .draining operation := by
  cases step
  case begin begun isIdle known =>
    rw [progress_setProgress, Function.update_self] at isOperation ⊢
    cases isOperation
    exact .inr ⟨isIdle, rfl⟩
  case setType isReady =>
    rw [progress_setProgress, Function.update_self] at isOperation
    rcases isReady with isBarred | ⟨isDrained, _⟩
    · rw [isBarred]
      exact .inl isOperation
    · rw [isDrained]
      exact .inl isOperation
  case winTarget isTyped isFree =>
    rw [progress_setProgress, Function.update_self] at isOperation
    rw [isTyped]
    split at isOperation
    next => exact .inl isOperation
    next => exact .inl isOperation
  case releaseTarget isServed =>
    rw [progress_setProgress, Function.update_self] at isOperation
    rw [isServed]
    split at isOperation
    next => exact .inl isOperation
    next => exact .inl isOperation
  all_goals first
    | exact .inl isOperation
    | rw [progress_setProgress, Function.update_self] at isOperation
      simp_all [Progress.operation]

theorem AllRooted.step (rooted : AllRooted state) (locking : Locking state) (step : Step thread state next)
    (admissible : Admissible thread state next) : AllRooted next := by
  intro other operation isOperation
  by_cases isThread : other = thread
  · rw [isThread] at isOperation
    rcases step.operation_begun isOperation with isOld | ⟨isIdle, begins⟩
    · exact rooted_later (rooted thread operation isOld) step (locking.known thread operation isOld)
    · have known : operation.node < state.slist.count := by
        rcases step.operation_cases isOperation with known | isOld
        · exact known
        · rw [isIdle] at isOld
          cases isOld
      exact rooted_later (admissible operation isIdle begins) step known
  · rw [step.progress_of_ne isThread] at isOperation
    exact rooted_later (rooted other operation isOperation) step (locking.known other operation isOperation)

theorem allRooted (run : GuardedRun Admissible state) : AllRooted state := by
  induction run with
  | start started =>
      intro thread operation isOperation
      rw [started.idle] at isOperation
      cases isOperation
  | step before step admissible inductionHypothesis =>
      exact inductionHypothesis.step before.reached.locking step admissible

/-- Only an insert has a second lock to release. -/
theorem Step.halfReleased_cases (step : Step thread state next)
    (isHalf : next.progress other = .halfReleased operation) :
    operation.type = .insert ∨ state.progress other = .halfReleased operation := by
  by_cases isThread : other = thread
  · subst isThread
    cases step
    case winTarget =>
      rw [progress_setProgress, Function.update_self] at isHalf
      split at isHalf <;> cases isHalf
    case releaseTarget =>
      rw [progress_setProgress, Function.update_self] at isHalf
      split at isHalf
      next isInsert =>
        cases isHalf
        exact .inl isInsert
      next => cases isHalf
    all_goals first
      | exact .inr isHalf
      | rw [progress_setProgress, Function.update_self] at isHalf
        cases isHalf
  · rw [step.progress_of_ne isThread] at isHalf
    exact .inr isHalf

theorem Reached.halfReleased_insert (reached : Reached state)
    (isHalf : state.progress thread = .halfReleased operation) : operation.type = .insert := by
  induction reached with
  | start started =>
      rw [started.idle] at isHalf
      cases isHalf
  | step before step inductionHypothesis =>
      rcases step.halfReleased_cases isHalf with isInsert | isOld
      · exact isInsert
      · exact inductionHypothesis isOld

/-- The second lock of an insert that an admissible call began. -/
theorem pred_of_rooted (isRooted : operation.Rooted state.slist) (isInsert : operation.type = .insert) :
    ∃ pred, (state.slist.nodes operation.node).backward = some pred := by
  rcases isRooted with isUpdate | ⟨_, isPred⟩
  · rw [isInsert] at isUpdate
    cases isUpdate
  · exact isPred

/-- A thread in a call is stuck in one of the two loops, or has a next step. -/
theorem step_or_blocked (run : GuardedRun Admissible state) (isBusy : state.progress thread ≠ .idle) :
    (∃ next, Step thread state next) ∨ ∃ winner, state.Blocked thread winner := by
  have isRooted := allRooted run thread
  cases isProgress : state.progress thread with
  | idle => exact absurd isProgress isBusy
  | draining operation =>
      left
      cases isQueue : (state.contexts thread).requests with
      | nil => exact ⟨_, .drained isProgress isQueue⟩
      | cons request rest => exact ⟨_, .drain (.inr ⟨operation, isProgress⟩) isQueue⟩
  | drained operation =>
      left
      rw [isProgress] at isRooted
      rcases isRooted operation rfl with isUpdate | ⟨isInsert, _⟩
      · exact ⟨_, .setType (.inr ⟨isProgress, isUpdate⟩)⟩
      · exact ⟨_, .bar isProgress isInsert⟩
  | barred operation => exact .inl ⟨_, .setType (.inl isProgress)⟩
  | typed operation =>
      left
      cases isCtx : state.ctx operation.node with
      | none => exact ⟨_, .winTarget isProgress isCtx⟩
      | some winner => exact ⟨_, .loseTarget isProgress isCtx⟩
  | holdsTarget operation =>
      left
      rw [isProgress] at isRooted
      have isInsert := run.reached.locking.insert thread operation isProgress
      rcases pred_of_rooted (isRooted operation rfl) isInsert with ⟨pred, isPred⟩
      cases isCtx : state.ctx pred with
      | none => exact ⟨_, .winPred isProgress isPred isCtx⟩
      | some winner => exact ⟨_, .losePred isProgress isPred isCtx⟩
  | losing operation => exact .inl ⟨_, .shut isProgress⟩
  | rollingBack operation => exact .inl ⟨_, .rollBack isProgress⟩
  | won operation => exact .inl ⟨_, .openWindow isProgress⟩
  | fetching operation => exact .inl ⟨_, .closeWindow isProgress⟩
  | serving operation =>
      left
      cases isQueue : (state.contexts thread).requests with
      | nil => exact ⟨_, .finish isProgress isQueue⟩
      | cons request rest => exact ⟨_, .serve ⟨true, false⟩ isProgress isQueue⟩
  | served operation => exact .inl ⟨_, .releaseTarget isProgress⟩
  | halfReleased operation =>
      left
      rw [isProgress] at isRooted
      have isInsert := run.reached.halfReleased_insert isProgress
      rcases pred_of_rooted (isRooted operation rfl) isInsert with ⟨pred, isPred⟩
      exact ⟨_, .releasePred isProgress isPred⟩
  | released operation => exact .inl ⟨_, .reset isProgress⟩
  | lost operation winner =>
      left
      by_cases same : (state.contexts winner).type = operation.type
      · exact ⟨_, .contend isProgress same⟩
      · exact ⟨_, .otherType isProgress same⟩
  | spinning operation winner =>
      by_cases isShut : (state.contexts winner).maxDepth = -1
      · exact .inr ⟨winner, .inl ⟨operation, isProgress, isShut⟩⟩
      · exact .inl ⟨_, .leaveLoop isProgress isShut⟩
  | passed operation winner =>
      left
      by_cases positive : 0 < (state.contexts winner).maxDepth
      · exact ⟨_, .grant isProgress positive⟩
      · exact ⟨_, .refuse isProgress (not_lt.mp positive)⟩
  | admitted operation winner => exact .inl ⟨_, .enqueue (.fill 0) (.fill 0) isProgress⟩
  | waiting operation winner =>
      cases isReply : state.replies thread with
      | none => exact .inr ⟨winner, .inr ⟨operation, isProgress, isReply⟩⟩
      | some reply => exact .inl ⟨_, .leave isProgress isReply⟩

theorem Blocked.no_step (blocked : state.Blocked thread winner) : ¬ Step thread state next := by
  intro step
  rcases blocked with ⟨operation, isSpinning, isShut⟩ | ⟨operation, isWaiting, isSilent⟩
  · cases step
    all_goals simp_all
  · cases step
    all_goals simp_all

/-! ### Chains of waits -/

/-- In a call exactly the blocked threads are stuck. Nobody is blocked by itself through
however many others, and each chain of blocked threads ends at a thread that has a next
step or is outside any call. -/
theorem no_deadlock (run : GuardedRun Admissible state) (thread : ThreadId) :
    (state.progress thread ≠ .idle →
        ((∀ next, ¬ Step thread state next) ↔ ∃ winner, state.Blocked thread winner)) ∧
      ¬ Relation.TransGen state.Blocked thread thread ∧
        ∃ last, Relation.ReflTransGen state.Blocked thread last ∧
          (state.progress last = .idle ∨ ∃ next, Step last state next) := by
  have ends : WaitsEnd state.Blocked := run.reached.waitsEnd.mono fun _ _ blocked => blocked.waitsFor
  refine ⟨fun isBusy => ⟨fun isStuck => ?_, fun isBlocked next => ?_⟩, ends.not_circular thread, ?_⟩
  · rcases step_or_blocked run isBusy with ⟨next, step⟩ | isBlocked
    · exact absurd step (isStuck next)
    · exact isBlocked
  · rcases isBlocked with ⟨winner, blocked⟩
    exact blocked.no_step
  · rcases ends.exists_end thread with ⟨last, isChain, isEnd⟩
    refine ⟨last, isChain, ?_⟩
    by_cases isIdle : state.progress last = .idle
    · exact .inl isIdle
    · rcases step_or_blocked run isIdle with isStep | ⟨winner, blocked⟩
      · exact .inr isStep
      · exact absurd blocked (isEnd winner)

/-- Thread 2 waits for thread 1, which has lost another lock to thread 0 meanwhile. -/
theorem chain_of_two : ∃ state, GuardedRun Admissible state ∧ state.Blocked 2 1 ∧ state.Blocked 1 0 ∧
    state.ctx 1 = some 0 := by
  obtain ⟨_, _, _, twoNodes⟩ := SkipList.insert_two_spec 64 (by decide : ([1] : Str) ≤ [5]) 1024 2048
    .type10 .type12 Nat.one_pos Nat.two_pos
  have start : GuardedRun Admissible flushed := .start (started_afterFlush twoNodes (by decide) (by decide) _)
  -- thread 1 updates the second node, and thread 2 finds its context there
  have begun := start.step (.begin ⟨.update, 2⟩ rfl (by decide) : Step 1 flushed _) (.of_begin (.inl rfl))
  have drained := begun.step (.drained rfl rfl : Step 1 _ _) (.of_busy (by decide))
  have typed := drained.step (.setType (.inr ⟨rfl, rfl⟩) : Step 1 _ _) (.of_busy (by decide))
  have won := typed.step (.winTarget rfl rfl : Step 1 _ _) (.of_busy (by decide))
  have begun := won.step (.begin ⟨.update, 2⟩ rfl (by decide) : Step 2 _ _) (.of_begin (.inl rfl))
  have drained := begun.step (.drained rfl rfl : Step 2 _ _) (.of_busy (by decide))
  have typed := drained.step (.setType (.inr ⟨rfl, rfl⟩) : Step 2 _ _) (.of_busy (by decide))
  have lost := typed.step (.loseTarget rfl rfl : Step 2 _ _) (.of_busy (by decide))
  have contends := lost.step (.contend rfl rfl : Step 2 _ _) (.of_busy (by decide))
  -- thread 1 returns
  have opened := contends.step (.openWindow rfl : Step 1 _ _) (.of_busy (by decide))
  have closed := opened.step (.closeWindow rfl : Step 1 _ _) (.of_busy (by decide))
  have finished := closed.step (.finish rfl rfl : Step 1 _ _) (.of_busy (by decide))
  have unlocked := finished.step (.releaseTarget rfl : Step 1 _ _) (.of_busy (by decide))
  have returned := unlocked.step (.reset rfl : Step 1 _ _) (.of_busy (by decide))
  -- thread 0 wins the first node, and thread 1 loses it
  have begun := returned.step (.begin ⟨.insert, 1⟩ rfl (by decide) : Step 0 _ _)
    (.of_begin (.inr ⟨rfl, SkipList.head, rfl⟩))
  have drained := begun.step (.drained rfl rfl : Step 0 _ _) (.of_busy (by decide))
  have barred := drained.step (.bar rfl rfl : Step 0 _ _) (.of_busy (by decide))
  have typed := barred.step (.setType (.inl rfl) : Step 0 _ _) (.of_busy (by decide))
  have target := typed.step (.winTarget rfl rfl : Step 0 _ _) (.of_busy (by decide))
  have begun := target.step (.begin ⟨.insert, 1⟩ rfl (by decide) : Step 1 _ _)
    (.of_begin (.inr ⟨rfl, SkipList.head, rfl⟩))
  have drained := begun.step (.drained rfl rfl : Step 1 _ _) (.of_busy (by decide))
  have barred := drained.step (.bar rfl rfl : Step 1 _ _) (.of_busy (by decide))
  have typed := barred.step (.setType (.inl rfl) : Step 1 _ _) (.of_busy (by decide))
  have lost := typed.step (.loseTarget rfl rfl : Step 1 _ _) (.of_busy (by decide))
  have contends := lost.step (.contend rfl rfl : Step 1 _ _) (.of_busy (by decide))
  exact ⟨_, contends, .inl ⟨_, rfl, rfl⟩, .inl ⟨_, rfl, rfl⟩, rfl⟩

/-- The chain that begins at thread 2 ends at a thread that can go on. -/
theorem chain_of_two_ends : ∃ state, state.Blocked 2 1 ∧ state.Blocked 1 0 ∧
    ∃ last, Relation.ReflTransGen state.Blocked 2 last ∧
      (state.progress last = .idle ∨ ∃ next, Step last state next) := by
  rcases chain_of_two with ⟨state, run, first, second, _⟩
  exact ⟨state, first, second, (no_deadlock run 2).2.2⟩

/-! ### Threads that hold a lock -/

/-- A step that leaves both the thread's place in the code and the length of its queue:
a fetch, a request put back, an allocation, a write, a chunk stored or linked. -/
def Works (thread : ThreadId) (state next : LockMachine) : Prop :=
  next.progress thread = state.progress thread ∧
    (next.requests thread).length = (state.requests thread).length

/-- Steps of one thread until it returns, while all others stand still, and how many of
them are work. -/
inductive Alone (thread : ThreadId) : Nat → Nat → LockMachine → LockMachine → Prop where
  | stay {state : LockMachine} : Alone thread 0 0 state state
  | work {state next last : LockMachine} {steps works : Nat} (isBusy : state.progress thread ≠ .idle)
      (first : Step thread state next) (isWork : Works thread state next)
      (rest : Alone thread steps works next last) : Alone thread (steps + 1) (works + 1) state last
  | advance {state next last : LockMachine} {steps works : Nat} (isBusy : state.progress thread ≠ .idle)
      (first : Step thread state next) (advances : ¬ Works thread state next)
      (rest : Alone thread steps works next last) : Alone thread (steps + 1) works state last

/-- The bound on the steps before the return that are no work. -/
def remaining (state : LockMachine) (thread : ThreadId) : Nat :=
  (state.progress thread).remaining (state.requests thread).length

/-- The thread is between its first lock and its return, or has returned. -/
def Returning (state : LockMachine) (thread : ThreadId) : Prop :=
  0 < state.remaining thread ∨ state.progress thread = .idle

theorem progress_self (progress : Progress) : (state.setProgress thread progress).progress thread = progress :=
  Function.update_self _ _ _

theorem requests_after_setMaxDepth (maxDepth : Int) (progress : Progress) :
    ((state.setMaxDepth thread maxDepth).setProgress thread progress).requests thread = state.requests thread := by
  simp [requests, setMaxDepth, setContext, setProgress]

theorem remaining_of_holds (locking : Locking state) {node : NodeId} (holds : state.ctx node = some thread) :
    0 < state.remaining thread :=
  Progress.remaining_of_locked _ ((locking.holds node thread).mp holds)

theorem remaining_eq {progress : Progress} (isProgress : state.progress thread = progress) :
    state.remaining thread = progress.remaining (state.requests thread).length := by
  rw [remaining, isProgress]

theorem remaining_of_works (isWork : Works thread state next) : next.remaining thread = state.remaining thread := by
  unfold remaining
  rw [isWork.1, isWork.2]

/-- What is no work brings the thread closer to its return. -/
theorem Step.remaining_lt (step : Step thread state next) (isHolding : 0 < state.remaining thread)
    (advances : ¬ Works thread state next) :
    next.remaining thread < state.remaining thread ∧ Returning next thread := by
  unfold Returning
  cases step
  case winPred holds _ _ =>
    rw [remaining_eq holds, remaining_eq (progress_self _)]
    exact ⟨Nat.lt_succ_self _, .inl (Nat.succ_pos _)⟩
  case losePred holds _ _ =>
    rw [remaining_eq holds, remaining_eq (progress_self _)]
    exact ⟨by simp only [Progress.remaining]; omega, .inl (Nat.succ_pos _)⟩
  case shut isLosing =>
    rw [remaining_eq isLosing, remaining_eq (progress_self _)]
    exact ⟨Nat.lt_succ_self _, .inl (Nat.succ_pos _)⟩
  case rollBack isRolling =>
    rw [remaining_eq isRolling, remaining_eq (progress_self _)]
    exact ⟨Nat.lt_succ_self _, .inr (progress_self _)⟩
  case openWindow isWon =>
    rw [remaining_eq isWon, remaining_eq (progress_self _), requests_after_setMaxDepth]
    exact ⟨Nat.lt_succ_self _, .inl (Nat.succ_pos _)⟩
  case closeWindow isFetching =>
    rw [remaining_eq isFetching, remaining_eq (progress_self _), requests_after_setMaxDepth]
    exact ⟨Nat.lt_succ_self _, .inl (Nat.succ_pos _)⟩
  case serve operation request rest reply isServing isQueue =>
    have shorter : (state.answer thread request rest (some operation) reply).requests thread = rest := by
      simp [requests, answer, setContext]
    have isSame : (state.answer thread request rest (some operation) reply).progress thread = .serving operation :=
      isServing
    rw [remaining_eq isServing, remaining_eq isSame, shorter, requests, isQueue]
    exact ⟨Nat.lt_succ_self _, .inl (Nat.succ_pos _)⟩
  case finish isServing isEmpty =>
    rw [remaining_eq isServing, remaining_eq (progress_self _)]
    exact ⟨by simp only [Progress.remaining]; omega, .inl (Nat.succ_pos _)⟩
  case giveUpServing isServing _ _ =>
    rw [remaining_eq isServing, remaining_eq (progress_self _)]
    exact ⟨by simp only [Progress.remaining]; omega, .inl (Nat.succ_pos _)⟩
  case releaseTarget isServed =>
    rw [remaining_eq isServed, remaining_eq (progress_self _)]
    split
    next => exact ⟨Nat.lt_succ_self _, .inl (Nat.succ_pos _)⟩
    next => exact ⟨(by decide : 1 < 3), .inl (Nat.succ_pos _)⟩
  case releasePred isHalf _ =>
    rw [remaining_eq isHalf, remaining_eq (progress_self _)]
    exact ⟨Nat.lt_succ_self _, .inl (Nat.succ_pos _)⟩
  case reset isReleased =>
    rw [remaining_eq isReleased, remaining_eq (progress_self _)]
    exact ⟨Nat.lt_succ_self _, .inr (progress_self _)⟩
  case pushBack isServing isInsert isQueue =>
    refine absurd ⟨rfl, ?_⟩ advances
    simp [requests, setContext, isQueue]
  case drain isBefore isQueue =>
    rcases isBefore with isIdle | ⟨operation, isDraining⟩
    · rw [remaining_eq isIdle] at isHolding
      cases isHolding
    · rw [remaining_eq isDraining] at isHolding
      cases isHolding
  case setType isReady =>
    rcases isReady with isBarred | ⟨isDrained, _⟩
    · rw [remaining_eq isBarred] at isHolding
      cases isHolding
    · rw [remaining_eq isDrained] at isHolding
      cases isHolding
  -- what is left is work, or no step of a thread that holds a lock
  all_goals first
    | exact absurd ⟨rfl, rfl⟩ advances
    | rename_i isProgress
      rw [remaining_eq isProgress] at isHolding
      cases isHolding
    | rename_i isProgress _
      rw [remaining_eq isProgress] at isHolding
      cases isHolding

theorem not_works_setProgress {progress : Progress} (differs : state.progress thread ≠ progress) :
    ¬ Works thread state (next.setProgress thread progress) := by
  intro isWork
  rw [Works, progress_self] at isWork
  exact differs isWork.1.symm

/-- Until a thread that holds a lock has returned, it has a step that is no work. -/
theorem advance_exists (run : GuardedRun Admissible state) (isHolding : 0 < state.remaining thread) :
    ∃ next, Step thread state next ∧ ¬ Works thread state next := by
  have isRooted := allRooted run thread
  cases isProgress : state.progress thread with
  | holdsTarget operation =>
      have isInsert := run.reached.locking.insert thread operation isProgress
      rcases pred_of_rooted (isRooted operation (by rw [isProgress]; rfl)) isInsert with ⟨pred, isPred⟩
      cases isCtx : state.ctx pred with
      | none => exact ⟨_, .winPred isProgress isPred isCtx, not_works_setProgress (by simp [isProgress])⟩
      | some winner => exact ⟨_, .losePred isProgress isPred isCtx, not_works_setProgress (by simp [isProgress])⟩
  | losing operation => exact ⟨_, .shut isProgress, not_works_setProgress (by simp [isProgress])⟩
  | rollingBack operation => exact ⟨_, .rollBack isProgress, not_works_setProgress (by simp [isProgress])⟩
  | won operation => exact ⟨_, .openWindow isProgress, not_works_setProgress (by simp [isProgress])⟩
  | fetching operation => exact ⟨_, .closeWindow isProgress, not_works_setProgress (by simp [isProgress])⟩
  | serving operation =>
      cases isQueue : (state.contexts thread).requests with
      | nil => exact ⟨_, .finish isProgress isQueue, not_works_setProgress (by simp [isProgress])⟩
      | cons request rest =>
          refine ⟨_, .serve ⟨true, false⟩ isProgress isQueue, fun isWork => ?_⟩
          have sameLength := isWork.2
          simp [requests, answer, setContext, isQueue] at sameLength
  | served operation =>
      refine ⟨_, .releaseTarget isProgress, not_works_setProgress ?_⟩
      rw [isProgress]
      split <;> simp
  | halfReleased operation =>
      have isInsert := run.reached.halfReleased_insert isProgress
      rcases pred_of_rooted (isRooted operation (by rw [isProgress]; rfl)) isInsert with ⟨pred, isPred⟩
      exact ⟨_, .releasePred isProgress isPred, not_works_setProgress (by simp [isProgress])⟩
  | released operation => exact ⟨_, .reset isProgress, not_works_setProgress (by simp [isProgress])⟩
  | _ =>
      rw [remaining_eq isProgress] at isHolding
      cases isHolding

theorem Alone.run {steps works : Nat} {last : LockMachine} (alone : Alone thread steps works state last)
    (run : GuardedRun Admissible state) : GuardedRun Admissible last := by
  induction alone with
  | stay => exact run
  | work isBusy first _ _ inductionHypothesis => exact inductionHypothesis (run.step first (.of_busy isBusy))
  | advance isBusy first _ _ inductionHypothesis => exact inductionHypothesis (run.step first (.of_busy isBusy))

theorem Alone.remaining_add_le {steps works : Nat} {last : LockMachine}
    (alone : Alone thread steps works state last) (returning : Returning state thread) :
    steps + last.remaining thread ≤ state.remaining thread + works ∧ Returning last thread := by
  induction alone with
  | stay => exact ⟨by omega, returning⟩
  | @work state next last steps works isBusy first isWork rest inductionHypothesis =>
      have same := remaining_of_works isWork
      have isHolding : 0 < state.remaining thread := returning.resolve_right isBusy
      have after := inductionHypothesis (.inl (by omega))
      exact ⟨by omega, after.2⟩
  | @advance state next last steps works isBusy first advances rest inductionHypothesis =>
      have fewer := first.remaining_lt (returning.resolve_right isBusy) advances
      have after := inductionHypothesis fewer.2
      exact ⟨by omega, after.2⟩

end LockMachine

end DiStore.Cluster
