import DiStore.Cluster.LockDiscipline

/-!
Contract: requests that losers hand over to winners.

Owns: the invariant that ties the queues to the threads that wait, the runs in which
no handed-over request is orphaned, and the runs in which every request is served by
the operation it was meant for.

A context is reused by all operations of its thread, and a loser may use the pointer
that its CAS returned at any later time. Both results therefore name the step that
comes too late.
-/

set_option autoImplicit false

namespace DiStore.Cluster

open DiStore.Concurrency DiStore.DataLayer DiStore.SearchLayer

/-- Served, or refused for good: not merely told to retry. -/
def RequestAnswer.Final (answer : RequestAnswer) : Prop := answer.reply.retry = false ∨ answer.reply.succeed = true

/-- A final answer came from a thread that held the requester's node and did the same. -/
def RequestAnswer.Meant (answer : RequestAnswer) : Prop :=
  ∃ requested operation, answer.requested = some requested ∧ answer.operation = some operation ∧
    requested.node ∈ answer.held ∧ requested.type = operation.type

/-- What a thread is about to serve requests for: its operation, once `drain_pending` is
over and until the last pass. -/
def Progress.collecting : Progress → Option Operation
  | .drained operation => some operation
  | .barred operation => some operation
  | .typed operation => some operation
  | .holdsTarget operation => some operation
  | .won operation => some operation
  | .fetching operation => some operation
  | .serving operation => some operation
  | _ => none

/-- The operation is served together with `serving`. -/
def Operation.ServedBy (operation : Operation) (slist : SkipList) (serving : Operation) : Prop :=
  operation.node ∈ serving.lockedSet slist ∧ operation.type = serving.type

theorem Progress.collecting_operation {progress : Progress} {operation : Operation}
    (isCollecting : progress.collecting = some operation) :
    progress.operation = some operation := by
  cases progress <;> first | exact isCollecting | cases isCollecting

/-- A step that is neither a last pass, nor an admission, nor a push. -/
def Progress.plain : Progress → Bool
  | .serving _ => false
  | .passed _ _ => false
  | .admitted _ _ => false
  | _ => true

namespace LockMachine

variable {state next : LockMachine} {thread other winner : ThreadId} {node : NodeId}
variable {operation : Operation} {request : ConcurrencyRequest}

/-- The requests in the queue of a context. -/
def requests (state : LockMachine) (winner : ThreadId) : List ConcurrencyRequest :=
  (state.contexts winner).requests

/-- A thread waits exactly while its request is in the queue of the context it found. -/
structure Queued (state : LockMachine) : Prop where
  waits : ∀ winner, ∀ request ∈ state.requests winner,
    (∃ operation, state.progress request.requester = .waiting operation winner) ∧
      state.replies request.requester = none
  queued : ∀ thread operation winner, state.progress thread = .waiting operation winner →
    state.replies thread = none → ∃ request ∈ state.requests winner, request.requester = thread
  once : ∀ winner, ((state.requests winner).map ConcurrencyRequest.requester).Nodup

theorem Started.queued (started : Started state) : Queued state where
  waits winner request isMember := by
    rw [requests, started.noRequests] at isMember
    cases isMember
  queued thread operation winner waits := by
    rw [started.idle] at waits
    cases waits
  once winner := by
    rw [requests, started.noRequests]
    exact List.nodup_nil

/-- What a step does to the queues. -/
inductive QueueChange (thread : ThreadId) (before after : LockMachine) : Prop where
  | same (requests : after.requests = before.requests) (replies : after.replies = before.replies)
  | popped (request : ConcurrencyRequest) (rest : List ConcurrencyRequest) (reply : Reply)
      (isQueue : before.requests thread = request :: rest)
      (requests : after.requests = Function.update before.requests thread rest)
      (replies : after.replies = Function.update before.replies request.requester (some reply))
      (progress : after.progress = before.progress)
  | rotated (request : ConcurrencyRequest) (rest : List ConcurrencyRequest)
      (isQueue : before.requests thread = request :: rest)
      (requests : after.requests = Function.update before.requests thread (rest ++ [request]))
      (replies : after.replies = before.replies)
  | pushed (operation : Operation) (winner : ThreadId) (request : ConcurrencyRequest)
      (isOwn : request.requester = thread) (isAdmitted : before.progress thread = .admitted operation winner)
      (requests : after.requests = Function.update before.requests winner (before.requests winner ++ [request]))
      (replies : after.replies = Function.update before.replies thread none)
      (progress : after.progress thread = .waiting operation winner)

theorem requests_setContext (context : ConcurrencyContext) :
    (state.setContext thread context).requests = Function.update state.requests thread context.requests := by
  funext other
  change (Function.update state.contexts thread context other).requests = _
  by_cases same : other = thread
  · rw [same, Function.update_self, Function.update_self]
  · rw [Function.update_of_ne same, Function.update_of_ne same]
    rfl

theorem requests_setContext_same {context : ConcurrencyContext}
    (same : context.requests = (state.contexts thread).requests) :
    (state.setContext thread context).requests = state.requests := by
  rw [requests_setContext, same]
  exact Function.update_eq_self _ _

theorem requests_push (request : ConcurrencyRequest) :
    (state.push winner request).requests =
      Function.update state.requests winner (state.requests winner ++ [request]) :=
  requests_setContext _

theorem Step.queueChange (step : Step thread state next) : QueueChange thread state next := by
  cases step with
  | drain isBefore isQueue => exact .popped _ _ _ isQueue (requests_setContext _) rfl rfl
  | serve reply isServing isQueue => exact .popped _ _ _ isQueue (requests_setContext _) rfl rfl
  | pushBack isServing isInsert isQueue => exact .rotated _ _ isQueue (requests_setContext _) rfl
  | giveUpServing isServing isInsert isQueue => exact .rotated _ _ isQueue (requests_setContext _) rfl
  | enqueue tag content isAdmitted =>
      exact .pushed _ _ _ rfl isAdmitted (requests_setContext _) rfl (Function.update_self _ _ _)
  | bar isDrained isInsert => exact .same (requests_setContext_same rfl) rfl
  | setType isReady => exact .same (requests_setContext_same rfl) rfl
  | shut isLosing => exact .same (requests_setContext_same rfl) rfl
  | openWindow isWon => exact .same (requests_setContext_same rfl) rfl
  | closeWindow isFetching => exact .same (requests_setContext_same rfl) rfl
  | reset isReleased => exact .same (requests_setContext_same rfl) rfl
  | grant isPassed positive => exact .same (requests_setContext_same rfl) rfl
  | refuse isPassed notPositive => exact .same (requests_setContext_same rfl) rfl
  | _ => exact .same rfl rfl

/-- A thread waits after it has pushed its request. -/
theorem Step.waiting_cases (step : Step thread state next)
    (waits : next.progress other = .waiting operation winner) :
    state.progress other = .waiting operation winner ∨
      (other = thread ∧ state.progress thread = .admitted operation winner ∧
        ∃ request ∈ next.requests winner, request.requester = thread) := by
  by_cases isThread : other = thread
  · subst isThread
    cases step
    case enqueue tag content isAdmitted =>
      rw [progress_setProgress, Function.update_self] at waits
      cases waits
      refine .inr ⟨rfl, isAdmitted, ⟨other, tag, content⟩, ?_, rfl⟩
      change _ ∈ (state.push winner ⟨other, tag, content⟩).requests winner
      rw [requests_push, Function.update_self]
      exact List.mem_append_right _ (List.mem_singleton_self _)
    case winTarget =>
      rw [progress_setProgress, Function.update_self] at waits
      split at waits <;> cases waits
    case releaseTarget =>
      rw [progress_setProgress, Function.update_self] at waits
      split at waits <;> cases waits
    all_goals first
      | exact .inl waits
      | rw [progress_setProgress, Function.update_self] at waits
        cases waits
  · rw [step.progress_of_ne isThread] at waits
    exact .inl waits

/-- A thread that waits stays until it is answered. -/
theorem Step.waiting_stays (step : Step thread state next)
    (waits : state.progress other = .waiting operation winner) (unanswered : state.replies other = none) :
    next.progress other = .waiting operation winner := by
  by_cases isThread : other = thread
  · subst isThread
    cases step
    all_goals first
      | exact waits
      | simp_all
  · rw [step.progress_of_ne isThread]
    exact waits

theorem Queued.step (queued : Queued state) (step : Step thread state next) : Queued next := by
  cases step.queueChange with
  | same requests replies =>
      constructor
      · intro winner request isMember
        rw [requests] at isMember
        obtain ⟨⟨operation, waits⟩, unanswered⟩ := queued.waits winner request isMember
        rw [replies]
        exact ⟨⟨operation, step.waiting_stays waits unanswered⟩, unanswered⟩
      · intro other operation winner waits unanswered
        rw [replies] at unanswered
        rw [requests]
        rcases step.waiting_cases waits with isOld | ⟨isThread, _, request, isMember, isOwn⟩
        · exact queued.queued other operation winner isOld unanswered
        · exact ⟨request, requests ▸ isMember, isOwn.trans isThread.symm⟩
      · rw [requests]
        exact queued.once
  | popped request rest reply isQueue requests replies progress =>
      have once := queued.once thread
      rw [isQueue, List.map_cons, List.nodup_cons] at once
      constructor
      · intro winner other isMember
        rw [requests] at isMember
        rw [progress, replies]
        by_cases isOwn : winner = thread
        · rw [isOwn, Function.update_self] at isMember
          have inQueue : other ∈ state.requests thread := isQueue ▸ List.mem_cons_of_mem _ isMember
          have differs : other.requester ≠ request.requester := fun same =>
            once.1 (same ▸ List.mem_map_of_mem isMember)
          rw [Function.update_of_ne differs, isOwn]
          exact queued.waits thread other inQueue
        · rw [Function.update_of_ne isOwn] at isMember
          obtain ⟨⟨operation, waits⟩, unanswered⟩ := queued.waits winner other isMember
          have differs : other.requester ≠ request.requester := by
            intro same
            -- one thread waits in one queue
            have inQueue : request ∈ state.requests thread := isQueue ▸ List.mem_cons_self
            obtain ⟨⟨_, alsoWaits⟩, _⟩ := queued.waits thread request inQueue
            rw [← same, waits] at alsoWaits
            exact isOwn (Progress.waiting.inj alsoWaits).2
          rw [Function.update_of_ne differs]
          exact ⟨⟨operation, waits⟩, unanswered⟩
      · intro other operation winner waits unanswered
        rw [progress] at waits
        rw [replies] at unanswered
        have differs : other ≠ request.requester := by
          rintro rfl
          rw [Function.update_self] at unanswered
          cases unanswered
        rw [Function.update_of_ne differs] at unanswered
        obtain ⟨own, isMember, isOwn⟩ := queued.queued other operation winner waits unanswered
        rw [requests]
        by_cases isThread : winner = thread
        · rw [isThread, isQueue] at isMember
          rw [isThread, Function.update_self]
          rcases List.mem_cons.mp isMember with isPopped | inRest
          · exact absurd (isPopped ▸ isOwn).symm differs
          · exact ⟨own, inRest, isOwn⟩
        · rw [Function.update_of_ne isThread]
          exact ⟨own, isMember, isOwn⟩
      · intro winner
        rw [requests]
        by_cases isThread : winner = thread
        · rw [isThread, Function.update_self]
          exact once.2
        · rw [Function.update_of_ne isThread]
          exact queued.once winner
  | rotated request rest isQueue requests replies =>
      have members : ∀ winner, (next.requests winner).Perm (state.requests winner) := by
        intro winner
        rw [requests]
        by_cases isThread : winner = thread
        · rw [isThread, Function.update_self, isQueue]
          exact List.perm_append_singleton request rest
        · rw [Function.update_of_ne isThread]
      constructor
      · intro winner other isMember
        obtain ⟨⟨operation, waits⟩, unanswered⟩ :=
          queued.waits winner other ((members winner).mem_iff.mp isMember)
        rw [replies]
        exact ⟨⟨operation, step.waiting_stays waits unanswered⟩, unanswered⟩
      · intro other operation winner waits unanswered
        rw [replies] at unanswered
        rcases step.waiting_cases waits with isOld | ⟨isThread, _, own, isMember, isOwn⟩
        · obtain ⟨own, isMember, isOwn⟩ := queued.queued other operation winner isOld unanswered
          exact ⟨own, (members winner).mem_iff.mpr isMember, isOwn⟩
        · exact ⟨own, isMember, isOwn.trans isThread.symm⟩
      · intro winner
        exact ((members winner).map _).nodup_iff.mpr (queued.once winner)
  | pushed operation target request isOwn isAdmitted requests replies progress =>
      have absent : ∀ winner, ∀ other ∈ state.requests winner, other.requester ≠ thread := by
        intro winner other isMember same
        obtain ⟨⟨_, waits⟩, _⟩ := queued.waits winner other isMember
        rw [same, isAdmitted] at waits
        cases waits
      constructor
      · intro winner other isMember
        have isCase : (winner = target ∧ other = request) ∨ other ∈ state.requests winner := by
          rw [requests] at isMember
          by_cases isTarget : winner = target
          · rw [isTarget, Function.update_self] at isMember
            rcases List.mem_append.mp isMember with isOld | isNew
            · rw [isTarget]
              exact .inr isOld
            · exact .inl ⟨isTarget, List.mem_singleton.mp isNew⟩
          · rw [Function.update_of_ne isTarget] at isMember
            exact .inr isMember
        rw [replies]
        rcases isCase with ⟨isTarget, isNew⟩ | isOld
        · rw [isTarget, isNew, isOwn, Function.update_self]
          exact ⟨⟨operation, progress⟩, rfl⟩
        · obtain ⟨⟨asked, waits⟩, unanswered⟩ := queued.waits winner other isOld
          rw [Function.update_of_ne (absent winner other isOld)]
          exact ⟨⟨asked, step.waiting_stays waits unanswered⟩, unanswered⟩
      · intro other asked winner waits unanswered
        rw [requests]
        rcases step.waiting_cases waits with isOld | ⟨isThread, isOther, _⟩
        · have differs : other ≠ thread := by
            rintro rfl
            rw [isAdmitted] at isOld
            cases isOld
          rw [replies, Function.update_of_ne differs] at unanswered
          obtain ⟨own, isMember, isRequester⟩ := queued.queued other asked winner isOld unanswered
          by_cases isTarget : winner = target
          · rw [isTarget] at isMember
            rw [isTarget, Function.update_self]
            exact ⟨own, List.mem_append_left _ isMember, isRequester⟩
          · rw [Function.update_of_ne isTarget]
            exact ⟨own, isMember, isRequester⟩
        · rw [isAdmitted] at isOther
          rw [← (Progress.admitted.inj isOther).2, Function.update_self]
          exact ⟨request, by simp, isOwn.trans isThread.symm⟩
      · intro winner
        rw [requests]
        by_cases isTarget : winner = target
        · rw [isTarget, Function.update_self, List.map_append, List.nodup_append]
          refine ⟨queued.once target, List.nodup_singleton _, ?_⟩
          intro left isLeft right isRight same
          obtain ⟨other, isMember, isOther⟩ := List.mem_map.mp isLeft
          rw [List.map_singleton, List.mem_singleton, isOwn] at isRight
          exact absent target other isMember (isOther.trans (same.trans isRight))
        · rw [Function.update_of_ne isTarget]
          exact queued.once winner

theorem Reached.queued (reached : Reached state) : Queued state := by
  induction reached with
  | start started => exact started.queued
  | step _ step ih => exact ih.step step

/-- A run in which every step meets the condition. -/
inductive GuardedRun (condition : ThreadId → LockMachine → LockMachine → Prop) : LockMachine → Prop where
  | start {state : LockMachine} (started : Started state) : GuardedRun condition state
  | step {state next : LockMachine} (before : GuardedRun condition state) {thread : ThreadId}
      (step : Step thread state next) (meets : condition thread state next) : GuardedRun condition next

theorem GuardedRun.reached {condition : ThreadId → LockMachine → LockMachine → Prop}
    (run : GuardedRun condition state) : Reached state := by
  induction run with
  | start started => exact .start started
  | step _ step _ ih => exact ih.step step

theorem GuardedRun.imp {condition weaker : ThreadId → LockMachine → LockMachine → Prop}
    (implies : ∀ thread state next, condition thread state next → weaker thread state next)
    (run : GuardedRun condition state) : GuardedRun weaker state := by
  induction run with
  | start started => exact .start started
  | step _ step meets ih => exact ih.step step (implies _ _ _ meets)

/-! ### Orphans -/

/-- The thread was admitted by the context of `winner`, and nobody has answered. -/
def Unanswered (state : LockMachine) (thread winner : ThreadId) : Prop :=
  ∃ operation, state.progress thread = .admitted operation winner ∨
    (state.progress thread = .waiting operation winner ∧ state.replies thread = none)

/-- A thread that has returned leaves no request behind. -/
def NoOrphans (state : LockMachine) : Prop :=
  ∀ winner, state.progress winner = .idle → ∀ thread, ¬ state.Unanswered thread winner

/-- A step that orphans nobody. A winner ends its last pass over the queue with the
queue empty and no thread between its `fetch_sub` and its push, and a thread is admitted
only by a context whose owner holds its lock and has not yet closed the window. -/
structure Orderly (thread : ThreadId) (state next : LockMachine) : Prop where
  lastPass : ∀ operation, state.progress thread = .serving operation →
    next.progress thread = .served operation → state.requests thread = [] ∧
      ∀ other asked, state.progress other ≠ .admitted asked thread
  admission : ∀ operation winner, state.progress thread = .passed operation winner →
    next.progress thread = .admitted operation winner →
      ∃ published, state.progress winner = .won published ∨ state.progress winner = .fetching published

/-- The thread has won and has not made its last pass. -/
def Attends (state : LockMachine) (winner : ThreadId) : Prop :=
  ∃ operation, state.progress winner = .won operation ∨ state.progress winner = .fetching operation ∨
    state.progress winner = .serving operation

/-- A winner that fetches goes on to serve. -/
theorem Step.from_fetching (step : Step thread state next) (isFetching : state.progress thread = .fetching operation) :
    next.progress thread = .fetching operation ∨ next.progress thread = .serving operation := by
  cases step
  case fetch => exact .inl isFetching
  case closeWindow isOpen =>
    rw [isFetching] at isOpen
    cases isOpen
    exact .inr (Function.update_self _ _ _)
  all_goals simp_all

/-- A winner that serves does so until its last pass. -/
theorem Step.from_serving (step : Step thread state next) (isServing : state.progress thread = .serving operation) :
    next.progress thread = .serving operation ∨ next.progress thread = .served operation := by
  cases step
  case serve => exact .inl isServing
  case pushBack => exact .inl isServing
  case finish isLast _ =>
    rw [isServing] at isLast
    cases isLast
    exact .inr (Function.update_self _ _ _)
  case giveUpServing isLast _ _ =>
    rw [isServing] at isLast
    cases isLast
    exact .inr (Function.update_self _ _ _)
  all_goals simp_all

/-- A winner attends to its requests until its last pass. -/
theorem Step.attends_cases (step : Step thread state next) (attends : state.Attends thread) :
    next.Attends thread ∨
      ∃ operation, state.progress thread = .serving operation ∧ next.progress thread = .served operation := by
  obtain ⟨operation, isWon | isFetching | isServing⟩ := attends
  · cases step
    case openWindow isOpen =>
      rw [isWon] at isOpen
      cases isOpen
      exact .inl ⟨operation, .inr (.inl (Function.update_self _ _ _))⟩
    all_goals simp_all
  · rcases step.from_fetching isFetching with isFetching | isServing
    · exact .inl ⟨operation, .inr (.inl isFetching)⟩
    · exact .inl ⟨operation, .inr (.inr isServing)⟩
  · rcases step.from_serving isServing with stillServing | isServed
    · exact .inl ⟨operation, .inr (.inr stillServing)⟩
    · exact .inr ⟨operation, isServing, isServed⟩

/-- A thread is admitted when its `fetch_sub` finds a positive depth. -/
theorem Step.admitted_cases (step : Step thread state next)
    (isAdmitted : next.progress other = .admitted operation winner) :
    state.progress other = .admitted operation winner ∨
      (other = thread ∧ state.progress thread = .passed operation winner) := by
  by_cases isThread : other = thread
  · subst isThread
    cases step
    case winTarget =>
      rw [progress_setProgress, Function.update_self] at isAdmitted
      split at isAdmitted <;> cases isAdmitted
    case releaseTarget =>
      rw [progress_setProgress, Function.update_self] at isAdmitted
      split at isAdmitted <;> cases isAdmitted
    case grant isPassed _ =>
      rw [progress_setProgress, Function.update_self] at isAdmitted
      cases isAdmitted
      exact .inr ⟨rfl, isPassed⟩
    all_goals first
      | exact .inl isAdmitted
      | rw [progress_setProgress, Function.update_self] at isAdmitted
        cases isAdmitted
  · rw [step.progress_of_ne isThread] at isAdmitted
    exact .inl isAdmitted

/-- An unanswered request was admitted before or is admitted by the step. -/
theorem Step.unanswered_cases (step : Step thread state next) (unanswered : next.Unanswered other winner) :
    state.Unanswered other winner ∨ (other = thread ∧ ∃ operation,
      state.progress thread = .passed operation winner ∧ next.progress thread = .admitted operation winner) := by
  obtain ⟨operation, isAdmitted | ⟨waits, noReply⟩⟩ := unanswered
  · rcases step.admitted_cases isAdmitted with isOld | ⟨isThread, isPassed⟩
    · exact .inl ⟨operation, .inl isOld⟩
    · exact .inr ⟨isThread, operation, isPassed, isThread ▸ isAdmitted⟩
  · rcases step.waiting_cases waits with isOld | ⟨isThread, isAdmitted, _⟩
    · refine .inl ⟨operation, .inr ⟨isOld, ?_⟩⟩
      cases step.queueChange with
      | same requests replies => rwa [← replies]
      | rotated request rest isQueue requests replies => rwa [← replies]
      | popped request rest reply isQueue requests replies progress =>
          rw [replies] at noReply
          by_cases isRequester : other = request.requester
          · rw [isRequester, Function.update_self] at noReply
            cases noReply
          · rwa [Function.update_of_ne isRequester] at noReply
      | pushed asked target request isOwn isAdmitted requests replies progress =>
          have differs : other ≠ thread := by
            rintro rfl
            rw [isAdmitted] at isOld
            cases isOld
          rwa [replies, Function.update_of_ne differs] at noReply
    · rw [isThread]
      exact .inl ⟨operation, .inl isAdmitted⟩

/-- In an orderly run, the winner of every unanswered request still attends to it. -/
theorem attends_of_unanswered (run : GuardedRun Orderly state) :
    ∀ thread winner, state.Unanswered thread winner → state.Attends winner := by
  induction run with
  | start started =>
      intro thread winner unanswered
      obtain ⟨operation, isAdmitted | ⟨waits, _⟩⟩ := unanswered
      · rw [started.idle] at isAdmitted
        cases isAdmitted
      · rw [started.idle] at waits
        cases waits
  | @step state next before thread step orderly ih =>
      have queued := before.reached.queued
      intro other winner unanswered
      have wasAttended : state.Attends winner ∧ (winner = thread → state.Unanswered other winner) := by
        rcases step.unanswered_cases unanswered with isOld | ⟨_, operation, isPassed, isAdmitted⟩
        · exact ⟨ih other winner isOld, fun _ => isOld⟩
        · obtain ⟨published, isOpen⟩ := orderly.admission operation winner isPassed isAdmitted
          refine ⟨⟨published, isOpen.imp_right .inl⟩, fun isThread => ?_⟩
          rw [isThread, isPassed] at isOpen
          rcases isOpen with isOpen | isOpen <;> cases isOpen
      by_cases isThread : winner = thread
      · subst isThread
        rcases step.attends_cases wasAttended.1 with attends | ⟨operation, isServing, isServed⟩
        · exact attends
        · -- the last pass would have answered
          obtain ⟨isEmpty, nobody⟩ := orderly.lastPass operation isServing isServed
          obtain ⟨asked, isAdmitted | ⟨waits, noReply⟩⟩ := wasAttended.2 rfl
          · exact absurd isAdmitted (nobody other asked)
          · obtain ⟨request, isMember, _⟩ := queued.queued other asked winner waits noReply
            rw [isEmpty] at isMember
            cases isMember
      · obtain ⟨published, progress⟩ := wasAttended.1
        rw [← step.progress_of_ne isThread] at progress
        exact ⟨published, progress⟩

/-- No request is orphaned in an orderly run. -/
theorem no_request_orphaned (run : GuardedRun Orderly state) : NoOrphans state := by
  intro winner isIdle thread unanswered
  obtain ⟨operation, progress⟩ := attends_of_unanswered run thread winner unanswered
  rw [isIdle] at progress
  rcases progress with progress | progress | progress <;> cases progress

/-- The winner closes its window and returns between the loser's `fetch_sub` and its
push. -/
theorem late_push_orphaned : ¬ ∀ state, Reached state → NoOrphans state := by
  intro always
  have begun := flushed_reached.step (.begin ⟨.update, 1⟩ rfl (by decide) : Step 0 flushed _)
  have drained := begun.step (.drained rfl rfl : Step 0 _ _)
  have typed := drained.step (.setType (.inr ⟨rfl, rfl⟩) : Step 0 _ _)
  have won := typed.step (.winTarget rfl rfl : Step 0 _ _)
  have opened := won.step (.openWindow rfl : Step 0 _ _)
  have otherBegun := opened.step (.begin ⟨.update, 1⟩ rfl (by decide) : Step 1 _ _)
  have otherDrained := otherBegun.step (.drained rfl rfl : Step 1 _ _)
  have otherTyped := otherDrained.step (.setType (.inr ⟨rfl, rfl⟩) : Step 1 _ _)
  have lost := otherTyped.step (.loseTarget rfl rfl : Step 1 _ _)
  have contends := lost.step (.contend rfl rfl : Step 1 _ _)
  have passed := contends.step (.leaveLoop rfl (by decide) : Step 1 _ _)
  have admitted := passed.step (.grant rfl (by decide) : Step 1 _ _)
  have closed := admitted.step (.closeWindow rfl : Step 0 _ _)
  have finished := closed.step (.finish rfl rfl : Step 0 _ _)
  have unlocked := finished.step (.releaseTarget rfl : Step 0 _ _)
  have returned := unlocked.step (.reset rfl : Step 0 _ _)
  exact always _ returned 0 rfl 1 ⟨⟨.update, 1⟩, .inl rfl⟩

/-! ### Misdirected requests -/

def AnswersMeant (state : LockMachine) : Prop := ∀ answer ∈ state.answers, answer.Final → answer.Meant

/-- A step that misdirects no request: a request enters a queue only while its owner is
collecting for the requester's node and type, or for nothing. -/
def Directed (thread : ThreadId) (state next : LockMachine) : Prop :=
  ∀ operation winner, state.progress thread = .admitted operation winner →
    next.progress thread = .waiting operation winner →
      ∀ serving, (state.progress winner).collecting = some serving → operation.ServedBy state.slist serving

/-- A thread begins to collect with an empty queue. -/
theorem Step.collecting_cases (step : Step thread state next)
    (isCollecting : (next.progress thread).collecting = some operation) :
    (state.progress thread).collecting = some operation ∨ state.requests thread = [] := by
  cases step
  case drained isDraining isEmpty => exact .inr isEmpty
  case setType isReady =>
    rw [progress_setProgress, Function.update_self] at isCollecting
    rcases isReady with isBarred | ⟨isDrained, _⟩
    · rw [isBarred]
      exact .inl isCollecting
    · rw [isDrained]
      exact .inl isCollecting
  case winTarget isTyped isFree =>
    rw [progress_setProgress, Function.update_self] at isCollecting
    rw [isTyped]
    split at isCollecting
    next => exact .inl isCollecting
    next => exact .inl isCollecting
  case releaseTarget isServed =>
    rw [progress_setProgress, Function.update_self] at isCollecting
    split at isCollecting <;> cases isCollecting
  all_goals first
    | exact .inl isCollecting
    | rw [progress_setProgress, Function.update_self] at isCollecting
      first
        | cases isCollecting; done
        | simp_all [Progress.collecting]

/-- Where a request in a queue comes from. -/
theorem Step.request_cases (step : Step thread state next) (isMember : request ∈ next.requests winner) :
    request ∈ state.requests winner ∨ ∃ operation, request.requester = thread ∧
      state.progress thread = .admitted operation winner ∧ next.progress thread = .waiting operation winner := by
  cases step.queueChange with
  | same requests replies =>
      rw [requests] at isMember
      exact .inl isMember
  | popped popped rest reply isQueue requests replies progress =>
      rw [requests] at isMember
      by_cases isThread : winner = thread
      · rw [isThread, Function.update_self] at isMember
        rw [isThread, isQueue]
        exact .inl (List.mem_cons_of_mem _ isMember)
      · rw [Function.update_of_ne isThread] at isMember
        exact .inl isMember
  | rotated rotated rest isQueue requests replies =>
      rw [requests] at isMember
      by_cases isThread : winner = thread
      · rw [isThread, Function.update_self] at isMember
        rw [isThread, isQueue]
        exact .inl ((List.perm_append_singleton rotated rest).mem_iff.mp isMember)
      · rw [Function.update_of_ne isThread] at isMember
        exact .inl isMember
  | pushed operation target pushed isOwn isAdmitted requests replies progress =>
      rw [requests] at isMember
      by_cases isTarget : winner = target
      · rw [isTarget, Function.update_self] at isMember
        rw [isTarget]
        rcases List.mem_append.mp isMember with isOld | isNew
        · exact .inl isOld
        · rw [List.mem_singleton.mp isNew]
          exact .inr ⟨operation, isOwn, isAdmitted, progress⟩
      · rw [Function.update_of_ne isTarget] at isMember
        exact .inl isMember

theorem Step.lockedSet_eq (step : Step thread state next) (known : operation.node < state.slist.count) :
    operation.lockedSet next.slist = operation.lockedSet state.slist := by
  unfold Operation.lockedSet
  rw [step.backward known]

/-- In a directed run a collecting thread has requests for its own operation only. -/
theorem directed_requests (run : GuardedRun Directed state) :
    ∀ winner serving, (state.progress winner).collecting = some serving →
      ∀ request ∈ state.requests winner, ∀ operation,
        state.progress request.requester = .waiting operation winner →
          operation.ServedBy state.slist serving := by
  induction run with
  | start started =>
      intro winner serving isCollecting
      rw [started.idle] at isCollecting
      cases isCollecting
  | @step state next before thread step directed ih =>
      have reached := before.reached
      intro winner serving isCollecting request isMember operation waits
      -- the queue of a thread that has just drained is empty
      have wasCollecting : (state.progress winner).collecting = some serving ∨
          (winner = thread ∧ state.requests thread = []) := by
        by_cases isThread : winner = thread
        · subst isThread
          exact (step.collecting_cases isCollecting).imp_right fun isEmpty => ⟨rfl, isEmpty⟩
        · rw [step.progress_of_ne isThread] at isCollecting
          exact .inl isCollecting
      rcases step.request_cases isMember with isOld | ⟨asked, isOwn, isAdmitted, isWaiting⟩
      · have collecting : (state.progress winner).collecting = some serving := by
          rcases wasCollecting with isCollecting | ⟨isThread, isEmpty⟩
          · exact isCollecting
          · rw [isThread, isEmpty] at isOld
            cases isOld
        obtain ⟨⟨asked, waited⟩, unanswered⟩ := reached.queued.waits winner request isOld
        have same := step.waiting_stays waited unanswered
        rw [same] at waits
        obtain ⟨rfl, _⟩ := Progress.waiting.inj waits
        have meant := ih winner serving collecting request isOld asked waited
        rw [Operation.ServedBy, step.lockedSet_eq (reached.locking.known winner serving
          (Progress.collecting_operation collecting))]
        exact meant
      · rw [isOwn, isWaiting] at waits
        obtain ⟨rfl, _⟩ := Progress.waiting.inj waits
        have collecting : (state.progress winner).collecting = some serving := by
          rcases wasCollecting with isCollecting | ⟨isThread, _⟩
          · exact isCollecting
          · rw [isThread, isWaiting] at isCollecting
            cases isCollecting
        rw [Operation.ServedBy, step.lockedSet_eq (reached.locking.known winner serving
          (Progress.collecting_operation collecting))]
        exact directed asked winner isAdmitted isWaiting serving collecting

/-- An answer is given by `drain_pending` or by a winner that serves. -/
theorem Step.answer_cases (step : Step thread state next) {answer : RequestAnswer} (isMember : answer ∈ next.answers) :
    answer ∈ state.answers ∨ answer.reply = ⟨false, true⟩ ∨
      ∃ operation request, state.progress thread = .serving operation ∧ request ∈ state.requests thread ∧
        answer.requested = (state.progress request.requester).operation ∧
        answer.operation = some operation ∧
        answer.held = (state.locked thread).filter fun node => state.ctx node = some thread := by
  cases step
  case drain request rest isBefore isQueue =>
    rcases List.mem_cons.mp isMember with isNew | isOld
    · rw [isNew]
      exact .inr (.inl rfl)
    · exact .inl isOld
  case serve operation request rest reply isServing isQueue =>
    rcases List.mem_cons.mp isMember with isNew | isOld
    · rw [isNew]
      have inQueue : request ∈ state.requests thread := by
        rw [requests, isQueue]
        exact List.mem_cons_self
      exact .inr (.inr ⟨operation, request, isServing, inQueue, rfl, rfl, rfl⟩)
    · exact .inl isOld
  all_goals exact .inl isMember

/-- In a directed run every request is served by the operation it was meant for. -/
theorem requests_served_as_meant (run : GuardedRun Directed state) : AnswersMeant state := by
  induction run with
  | start started =>
      intro answer isMember
      rw [started.noAnswers] at isMember
      cases isMember
  | @step state next before thread step directed ih =>
      intro answer isMember isFinal
      rcases step.answer_cases isMember with isOld | isDrained | ⟨serving, request, isServing, inQueue, isRequested,
        isOperation, isHeld⟩
      · exact ih answer isOld isFinal
      · unfold RequestAnswer.Final at isFinal
        rw [isDrained] at isFinal
        rcases isFinal with isFinal | isFinal <;> cases isFinal
      · have reached := before.reached
        obtain ⟨⟨operation, waits⟩, _⟩ := reached.queued.waits thread request inQueue
        obtain ⟨isLocked, sameType⟩ := directed_requests before thread serving (by rw [isServing]; rfl)
          request inQueue operation waits
        rw [waits] at isRequested
        refine ⟨operation, serving, isRequested, isOperation, ?_, sameType⟩
        have held : operation.node ∈ state.locked thread := by
          rw [locked_of_progress isServing]
          exact isLocked
        rw [isHeld, List.mem_filter]
        exact ⟨held, decide_eq_true ((reached.locking.holds _ _).mpr held)⟩

/-- The loser uses the pointer it found during the winner's next operation. -/
theorem stale_context_misdirects : ¬ ∀ state, Reached state → AnswersMeant state := by
  intro always
  have begun := flushed_reached.step (.begin ⟨.update, 1⟩ rfl (by decide) : Step 0 flushed _)
  have drained := begun.step (.drained rfl rfl : Step 0 _ _)
  have typed := drained.step (.setType (.inr ⟨rfl, rfl⟩) : Step 0 _ _)
  have won := typed.step (.winTarget rfl rfl : Step 0 _ _)
  have otherBegun := won.step (.begin ⟨.update, 1⟩ rfl (by decide) : Step 1 _ _)
  have otherDrained := otherBegun.step (.drained rfl rfl : Step 1 _ _)
  have otherTyped := otherDrained.step (.setType (.inr ⟨rfl, rfl⟩) : Step 1 _ _)
  have lost := otherTyped.step (.loseTarget rfl rfl : Step 1 _ _)
  have opened := lost.step (.openWindow rfl : Step 0 _ _)
  have closed := opened.step (.closeWindow rfl : Step 0 _ _)
  have finished := closed.step (.finish rfl rfl : Step 0 _ _)
  have unlocked := finished.step (.releaseTarget rfl : Step 0 _ _)
  have returned := unlocked.step (.reset rfl : Step 0 _ _)
  -- the same thread updates the second node
  have begunAgain := returned.step (.begin ⟨.update, 2⟩ rfl (by decide) : Step 0 _ _)
  have drainedAgain := begunAgain.step (.drained rfl rfl : Step 0 _ _)
  have typedAgain := drainedAgain.step (.setType (.inr ⟨rfl, rfl⟩) : Step 0 _ _)
  have wonAgain := typedAgain.step (.winTarget rfl rfl : Step 0 _ _)
  have openedAgain := wonAgain.step (.openWindow rfl : Step 0 _ _)
  have contends := openedAgain.step (.contend rfl rfl : Step 1 _ _)
  have passed := contends.step (.leaveLoop rfl (by decide) : Step 1 _ _)
  have admitted := passed.step (.grant rfl (by decide) : Step 1 _ _)
  have pushed := admitted.step (.enqueue (.fill 0) (.fill 0) rfl : Step 1 _ _)
  have closedAgain := pushed.step (.closeWindow rfl : Step 0 _ _)
  have answered := closedAgain.step (.serve ⟨false, false⟩ rfl rfl : Step 0 _ _)
  obtain ⟨requested, operation, isRequested, _, isHeld, _⟩ := always _ answered _ List.mem_cons_self (.inl rfl)
  cases isRequested
  revert isHeld
  decide

/-! ### A handover -/

theorem plain_step (isPlain : Progress.plain (state.progress thread) = true) :
    Orderly thread state next ∧ Directed thread state next := by
  refine ⟨⟨?_, ?_⟩, ?_⟩
  · intro operation isServing
    rw [isServing] at isPlain
    cases isPlain
  · intro operation winner isPassed
    rw [isPassed] at isPlain
    cases isPlain
  · intro operation winner isAdmitted
    rw [isAdmitted] at isPlain
    cases isPlain

/-- Thread 1 hands its update over to thread 0, which answers and returns. -/
theorem update_handed_over : ∃ state,
    GuardedRun (fun thread state next => Orderly thread state next ∧ Directed thread state next) state ∧
      state.progress 0 = .idle ∧ state.replies 1 = some ⟨true, false⟩ ∧ state.answers.length = 1 := by
  obtain ⟨_, _, _, twoNodes⟩ := SkipList.insert_two_spec 64 (by decide : ([1] : Str) ≤ [5]) 1024 2048
    .type10 .type12 Nat.one_pos Nat.two_pos
  have start : GuardedRun
      (fun thread state next => Orderly thread state next ∧ Directed thread state next) flushed :=
    .start (started_afterFlush twoNodes (by decide) (by decide) _)
  have begun := start.step (.begin ⟨.update, 1⟩ rfl (by decide) : Step 0 flushed _) (plain_step rfl)
  have drained := begun.step (.drained rfl rfl : Step 0 _ _) (plain_step rfl)
  have typed := drained.step (.setType (.inr ⟨rfl, rfl⟩) : Step 0 _ _) (plain_step rfl)
  have won := typed.step (.winTarget rfl rfl : Step 0 _ _) (plain_step rfl)
  have otherBegun := won.step (.begin ⟨.update, 1⟩ rfl (by decide) : Step 1 _ _) (plain_step rfl)
  have otherDrained := otherBegun.step (.drained rfl rfl : Step 1 _ _) (plain_step rfl)
  have otherTyped := otherDrained.step (.setType (.inr ⟨rfl, rfl⟩) : Step 1 _ _) (plain_step rfl)
  have lost := otherTyped.step (.loseTarget rfl rfl : Step 1 _ _) (plain_step rfl)
  have opened := lost.step (.openWindow rfl : Step 0 _ _) (plain_step rfl)
  have contends := opened.step (.contend rfl rfl : Step 1 _ _) (plain_step rfl)
  have passed := contends.step (.leaveLoop rfl (by decide) : Step 1 _ _) (plain_step rfl)
  have admitted := passed.step (.grant rfl (by decide) : Step 1 _ _) (by
    refine ⟨⟨(fun _ isServing => by cases isServing), fun operation winner isPassed _ => ?_⟩,
      (fun _ _ isAdmitted => by cases isAdmitted)⟩
    change Progress.passed ⟨.update, 1⟩ 0 = _ at isPassed
    cases isPassed
    exact ⟨⟨.update, 1⟩, .inr rfl⟩)
  have pushed := admitted.step (.enqueue (.fill 0) (.fill 0) rfl : Step 1 _ _) (by
    refine ⟨⟨(fun _ isServing => by cases isServing), (fun _ _ isPassed => by cases isPassed)⟩,
      fun operation winner isAdmitted _ serving isCollecting => ?_⟩
    change Progress.admitted ⟨.update, 1⟩ 0 = _ at isAdmitted
    cases isAdmitted
    cases isCollecting
    exact ⟨List.mem_singleton_self _, rfl⟩)
  have closed := pushed.step (.closeWindow rfl : Step 0 _ _) (plain_step rfl)
  have answered := closed.step (.serve ⟨true, false⟩ rfl rfl : Step 0 _ _) (by
    refine ⟨⟨fun operation _ isServed => ?_, (fun _ _ isPassed => by cases isPassed)⟩,
      (fun _ _ isAdmitted => by cases isAdmitted)⟩
    change Progress.serving ⟨.update, 1⟩ = _ at isServed
    cases isServed)
  have finished := answered.step (.finish rfl rfl : Step 0 _ _) (by
    refine ⟨⟨fun _ _ _ => ⟨rfl, fun other asked isAdmitted => ?_⟩, (fun _ _ isPassed => by cases isPassed)⟩,
      (fun _ _ isAdmitted => by cases isAdmitted)⟩
    match other with
    | 0 => cases isAdmitted
    | 1 => cases isAdmitted
    | other + 2 => cases isAdmitted)
  have unlocked := finished.step (.releaseTarget rfl : Step 0 _ _) (plain_step rfl)
  have returned := unlocked.step (.reset rfl : Step 0 _ _) (plain_step rfl)
  exact ⟨_, returned, rfl, rfl, rfl⟩

/-- After the handover thread 0 has left no request behind. -/
theorem handover_not_orphaned : ∃ state, state.progress 0 = .idle ∧ state.replies 1 = some ⟨true, false⟩ ∧
    NoOrphans state := by
  obtain ⟨state, run, isIdle, isReply, _⟩ := update_handed_over
  exact ⟨state, isIdle, isReply, no_request_orphaned (run.imp fun _ _ _ both => both.1)⟩

/-- Its answer came from the operation it was meant for. -/
theorem handover_served_as_meant : ∃ state, state.answers.length = 1 ∧ AnswersMeant state := by
  obtain ⟨state, run, _, _, isAnswer⟩ := update_handed_over
  exact ⟨state, isAnswer, requests_served_as_meant (run.imp fun _ _ _ both => both.2)⟩

end LockMachine

end DiStore.Cluster
