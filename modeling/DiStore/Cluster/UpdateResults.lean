import DiStore.Cluster.Handovers
import DiStore.Common.Digests

/-!
Contract: what the results of concurrent updates mean.

Owns: the threads together with their calls of `update`, from the call to its return over
every retry, and the runs in which `false` is returned for absent keys only.

A call that loses its node to an insert returns `false` without having seen an image. A call
that wins answers from the image that it has fetched, and a call that is served gets the
answer of whatever operation its request has reached.
-/

set_option autoImplicit false

namespace DiStore.Cluster

open DiStore.Concurrency DiStore.DataLayer DiStore.SearchLayer

/-- A call of `update` in progress. `missed` says that at some moment since the call the node
that covers the key did not have it, `updated` is what `buffer->update` returned. -/
structure UpdateCall where
  key : Bytes16
  missed : Bool
  updated : Bool
deriving DecidableEq

structure UpdateReturn where
  key : Bytes16
  result : Bool
  missed : Bool
deriving DecidableEq

structure UpdateMachine where
  machine : LockMachine
  calls : ThreadId → Option UpdateCall
  returns : List UpdateReturn

/-- `buffer->update` has run. -/
def Progress.decided : Progress → Bool
  | .serving _ => true
  | .served _ => true
  | .halfReleased _ => true
  | .released _ => true
  | _ => false

/-- A step from here has nothing to do with an image, a request or a return. -/
def Progress.routine : Progress → Bool
  | .idle => false
  | .fetching _ => false
  | .serving _ => false
  | .lost _ _ => false
  | .admitted _ _ => false
  | _ => true

variable [Digest]

/-- The node that covers a key has it. -/
def LockMachine.stored (machine : LockMachine) (key : Bytes16) : Bool :=
  match machine.slist.fuzzySearch key.val with
  | none => false
  | some node => ((machine.remote (machine.dataNode node)).find key.val).isSome

namespace UpdateMachine

open LockMachine

/-- What a step ends the call with; `none` when the call goes on or retries. -/
def ending (machine next : LockMachine) (thread : ThreadId) (call : UpdateCall) : Option Bool :=
  match machine.progress thread, next.progress thread with
  | .released _, .idle => some call.updated
  | .lost _ _, .idle => some false
  | .waiting _ _, .idle =>
      match machine.replies thread with
      | some reply => if reply.retry then none else some reply.succeed
      | none => none
  | _, _ => none

/-- The winner's own `buffer->update`, once its window is closed. -/
def updateOwn (machine next : LockMachine) (thread : ThreadId) (call : UpdateCall) : UpdateCall :=
  match machine.progress thread, next.progress thread with
  | .fetching operation, .serving _ =>
      { call with
        updated := (machine.fetched thread operation.node).any fun image => (image.find call.key.val).isSome }
  | _, _ => call

def observe (next : LockMachine) (call : UpdateCall) : UpdateCall :=
  { call with missed := call.missed || !next.stored call.key }

def act (state : UpdateMachine) (thread : ThreadId) (next : LockMachine) : UpdateMachine where
  machine := next
  calls := fun other => (state.calls other).bind fun call =>
    if other = thread then
      if (ending state.machine next thread call).isSome then none
      else some (observe next (updateOwn state.machine next thread call))
    else some (observe next call)
  returns :=
    match state.calls thread with
    | none => state.returns
    | some call =>
        match ending state.machine next thread call with
        | some result => ⟨call.key, result, (observe next call).missed⟩ :: state.returns
        | none => state.returns

/-- What `update`, and the answers of a put, do within a step of the machine. -/
structure Obeys (state : UpdateMachine) (thread : ThreadId) (next : LockMachine) : Prop where
  begins : ∀ operation, state.machine.progress thread = .idle → next.progress thread = .draining operation →
    match state.calls thread with
    | some call =>
        operation.type = .update ∧ state.machine.slist.fuzzySearch call.key.val = some operation.node
    | none => operation.type = .insert
  asks : ∀ call operation winner, state.calls thread = some call →
    state.machine.progress thread = .admitted operation winner →
      ∀ request ∈ next.requests winner, request.requester = thread → request.tag = call.key
  fetches : ∀ call operation, state.calls thread = some call → state.machine.progress thread = .fetching operation →
    next.progress thread = .serving operation → ∃ image, state.machine.fetched thread operation.node = some image
  serves : ∀ operation request rest reply, state.machine.progress thread = .serving operation →
    next = state.machine.answer thread request rest (some operation) reply →
      if operation.type = .update then
        ∃ image, state.machine.fetched thread operation.node = some image ∧
          reply = ⟨(image.find request.tag.val).isSome, false⟩
      else reply.succeed = true ∨ reply.retry = true

inductive UpdateStep (thread : ThreadId) : UpdateMachine → UpdateMachine → Prop where
  | call {state : UpdateMachine} (key : Bytes16) (isIdle : state.machine.progress thread = .idle)
      (noCall : state.calls thread = none) :
      UpdateStep thread state { state with
        calls := Function.update state.calls thread (some ⟨key, !state.machine.stored key, false⟩) }
  /-- `fuzzy_search` returns `nullptr` -/
  | unnamed {state : UpdateMachine} {call : UpdateCall} (isIdle : state.machine.progress thread = .idle)
      (isCall : state.calls thread = some call)
      (notNamed : state.machine.slist.fuzzySearch call.key.val = none) :
      UpdateStep thread state { state with
        calls := Function.update state.calls thread none
        returns := ⟨call.key, false, (observe state.machine call).missed⟩ :: state.returns }
  | act {state : UpdateMachine} {next : LockMachine} (step : Step thread state.machine next)
      (obeys : state.Obeys thread next) : UpdateStep thread state (state.act thread next)

def initial (machine : LockMachine) : UpdateMachine := ⟨machine, fun _ => none, []⟩

/-- A run in which every step meets the condition. -/
inductive UpdateRun (condition : ThreadId → UpdateMachine → UpdateMachine → Prop) : UpdateMachine → Prop where
  | start {machine : LockMachine} (started : Started machine) : UpdateRun condition (initial machine)
  | step {state next : UpdateMachine} (before : UpdateRun condition state) {thread : ThreadId}
      (step : UpdateStep thread state next) (meets : condition thread state next) : UpdateRun condition next

/-- `false` was returned only if at some moment of the call the key was not stored. -/
def Truthful (state : UpdateMachine) : Prop :=
  ∀ isReturn ∈ state.returns, isReturn.result = false → isReturn.missed = true

/-- A step that reports no stored key as absent. An update that finds another type in the
winner's context has a key that is not stored; and a node that has been fetched without the
key, for the winner's own update or for a request of an update, is still the one that the
search names for it. -/
structure Attentive (thread : ThreadId) (state next : UpdateMachine) : Prop where
  otherType : ∀ call operation winner, state.calls thread = some call →
    state.machine.progress thread = .lost operation winner → next.machine.progress thread = .idle →
      state.machine.stored call.key = false
  own : ∀ call operation image, state.calls thread = some call →
    state.machine.progress thread = .fetching operation → next.machine.progress thread = .serving operation →
      state.machine.fetched thread operation.node = some image → image.find call.key.val = none →
        state.machine.slist.fuzzySearch call.key.val = some operation.node
  served : ∀ call operation request rest reply image, state.calls request.requester = some call →
    state.machine.progress thread = .serving operation → operation.type = .update →
      next.machine = state.machine.answer thread request rest (some operation) reply →
        state.machine.fetched thread operation.node = some image → image.find call.key.val = none →
          state.machine.slist.fuzzySearch call.key.val = some operation.node

end UpdateMachine

/-! ### Steps -/

namespace LockMachine

variable {state next : LockMachine} {thread other : ThreadId} {operation : Operation}

/-- Steps that touch neither the list nor remote memory. -/
def Quiet (state next : LockMachine) : Prop := next.slist = state.slist ∧ next.remote = state.remote

theorem Quiet.stored (quiet : Quiet state next) (key : Bytes16) : next.stored key = state.stored key := by
  unfold LockMachine.stored dataNode
  rw [quiet.1, quiet.2]

omit [Digest] in
theorem Step.quiet_of_serving (step : Step thread state next) (isServing : next.progress thread = .serving operation)
    (wasFetching : state.progress thread = .fetching operation) : Quiet state next := by
  cases step
  case closeWindow => exact ⟨rfl, rfl⟩
  all_goals simp_all

omit [Digest] in
theorem Step.quiet_of_lost {winner : ThreadId} (step : Step thread state next)
    (isLost : state.progress thread = .lost operation winner) : Quiet state next := by
  cases step
  case otherType => exact ⟨rfl, rfl⟩
  case contend => exact ⟨rfl, rfl⟩
  all_goals simp_all

omit [Digest] in
/-- A winner's own update has run while it serves, or runs when it closes its window. -/
theorem Step.decided_cases (step : Step thread state next) (isDecided : (next.progress thread).decided = true) :
    (state.progress thread).decided = true ∨
      ∃ operation, state.progress thread = .fetching operation ∧ next.progress thread = .serving operation := by
  cases step
  case closeWindow isFetching => exact .inr ⟨_, isFetching, Function.update_self _ _ _⟩
  case winTarget isTyped isFree =>
    rw [progress_setProgress, Function.update_self] at isDecided
    split at isDecided <;> cases isDecided
  all_goals first
    | exact .inl isDecided
    | rw [progress_setProgress, Function.update_self] at isDecided
      cases isDecided
      done
    | refine .inl ?_
      simp_all [Progress.decided]

omit [Digest] in
/-- A thread has a reply that it had before, or it gets one: from `drain_pending`, or from a
winner that serves. -/
theorem Step.reply_cases (step : Step thread state next) {reply : Reply}
    (isReply : next.replies other = some reply) :
    state.replies other = some reply ∨ reply = ⟨false, true⟩ ∨
      ∃ operation request rest, state.progress thread = .serving operation ∧
        state.requests thread = request :: rest ∧ request.requester = other ∧
        next = state.answer thread request rest (some operation) reply := by
  cases step
  case drain request rest isBefore isQueue =>
    change Function.update state.replies request.requester (some ⟨false, true⟩) other = some reply at isReply
    by_cases isRequester : other = request.requester
    · rw [isRequester, Function.update_self] at isReply
      exact .inr (.inl (Option.some.inj isReply).symm)
    · rw [Function.update_of_ne isRequester] at isReply
      exact .inl isReply
  case serve operation request rest given isServing isQueue =>
    change Function.update state.replies request.requester (some given) other = some reply at isReply
    by_cases isRequester : other = request.requester
    · rw [isRequester, Function.update_self] at isReply
      cases isReply
      exact .inr (.inr ⟨operation, request, rest, isServing, isQueue, isRequester.symm, rfl⟩)
    · rw [Function.update_of_ne isRequester] at isReply
      exact .inl isReply
  case enqueue operation winner tag content isAdmitted =>
    change Function.update state.replies thread none other = some reply at isReply
    by_cases isThread : other = thread
    · rw [isThread, Function.update_self] at isReply
      cases isReply
    · rw [Function.update_of_ne isThread] at isReply
      exact .inl isReply
  all_goals exact .inl isReply

omit [Digest] in
theorem Step.unanswered_of_admitted {winner : ThreadId} (step : Step thread state next)
    (isAdmitted : state.progress thread = .admitted operation winner) : next.replies thread = none := by
  cases step
  case enqueue => exact Function.update_self _ _ _
  all_goals simp_all

end LockMachine

/-! ### Calls -/

namespace UpdateMachine

open LockMachine

variable {state : UpdateMachine} {next : LockMachine} {thread other : ThreadId} {call : UpdateCall}

/-- A call that goes on keeps its key and what it has missed. -/
theorem act_calls (isCall : (state.act thread next).calls other = some call) :
    ∃ before, state.calls other = some before ∧ call.key = before.key ∧
      call.missed = (before.missed || !next.stored before.key) ∧
      call.updated = if other = thread then (updateOwn state.machine next thread before).updated else before.updated := by
  obtain ⟨before, wasCall, goesOn⟩ := Option.bind_eq_some_iff.mp isCall
  refine ⟨before, wasCall, ?_⟩
  by_cases isThread : other = thread
  · rw [if_pos isThread] at goesOn
    rw [if_pos isThread]
    split at goesOn
    next => cases goesOn
    next =>
      rw [← Option.some.inj goesOn]
      unfold observe updateOwn
      split <;> exact ⟨rfl, rfl, rfl⟩
  · rw [if_neg isThread] at goesOn
    rw [if_neg isThread, ← Option.some.inj goesOn]
    exact ⟨rfl, rfl, rfl⟩

/-- A new return is that of the acting thread. -/
theorem act_returns {isReturn : UpdateReturn} (isMember : isReturn ∈ (state.act thread next).returns) :
    isReturn ∈ state.returns ∨ ∃ call result, state.calls thread = some call ∧
      ending state.machine next thread call = some result ∧
        isReturn = ⟨call.key, result, (observe next call).missed⟩ := by
  change isReturn ∈ (match state.calls thread with
    | none => state.returns
    | some call =>
        match ending state.machine next thread call with
        | some result => ⟨call.key, result, (observe next call).missed⟩ :: state.returns
        | none => state.returns) at isMember
  split at isMember
  next => exact .inl isMember
  next call isCall =>
    split at isMember
    next result isEnding =>
      rcases List.mem_cons.mp isMember with isNew | isOld
      · exact .inr ⟨call, result, isCall, isEnding, isNew⟩
      · exact .inl isOld
    next => exact .inl isMember

/-- What a call has been told, and what its request carries. -/
structure Tracked (state : UpdateMachine) : Prop where
  reached : Reached state.machine
  updated : ∀ thread call, state.calls thread = some call → (state.machine.progress thread).decided = true →
    call.updated = false → call.missed = true
  answered : ∀ thread call operation winner, state.calls thread = some call →
    state.machine.progress thread = .waiting operation winner →
      state.machine.replies thread = some ⟨false, false⟩ → call.missed = true
  asked : ∀ winner, ∀ request ∈ state.machine.requests winner, ∀ call,
    state.calls request.requester = some call → request.tag = call.key
  truthful : Truthful state

omit [Digest] in
theorem tracked_start {machine : LockMachine} (started : Started machine) : Tracked (initial machine) where
  reached := .start started
  updated thread call isCall := by cases isCall
  answered thread call operation winner isCall := by cases isCall
  asked winner request isMember call isCall := by cases isCall
  truthful isReturn isMember := by cases isMember

/-- What a winner has fetched without a key is what a lookup of the key sees, while the search
still names the node. -/
theorem not_stored_of_fetched {machine : LockMachine} (reached : Reached machine) {node : NodeId} {image : LinkedNode}
    {key : Bytes16} (isFetched : machine.fetched thread node = some image) (absent : image.find key.val = none)
    (named : machine.slist.fuzzySearch key.val = some node) : machine.stored key = false := by
  unfold LockMachine.stored
  rw [named]
  change ((machine.remote (machine.dataNode node)).find key.val).isSome = false
  rw [(reached.images.copies thread node image isFetched).2, absent]
  rfl

theorem Tracked.act (tracked : Tracked state) (step : Step thread state.machine next)
    (obeys : state.Obeys thread next) (attentive : Attentive thread state (state.act thread next)) :
    Tracked (state.act thread next) where
  reached := tracked.reached.step step
  updated other call isCall isDecided notUpdated := by
    obtain ⟨before, wasCall, _, missed, updated⟩ := act_calls isCall
    change (next.progress other).decided = true at isDecided
    rw [missed]
    by_cases isThread : other = thread
    · subst isThread
      rw [if_pos rfl] at updated
      rcases step.decided_cases isDecided with wasDecided | ⟨operation, wasFetching, isServing⟩
      · have same : updateOwn state.machine next other before = before := by
          unfold updateOwn
          split
          next wasFetching _ =>
            rw [wasFetching] at wasDecided
            cases wasDecided
          next => rfl
        rw [updated, same] at notUpdated
        rw [tracked.updated other before wasCall wasDecided notUpdated]
        rfl
      · obtain ⟨image, isFetched⟩ := obeys.fetches before operation wasCall wasFetching isServing
        have found : updateOwn state.machine next other before =
            { before with updated := (image.find before.key.val).isSome } := by
          unfold updateOwn
          rw [wasFetching, isServing]
          simp only [isFetched, Option.any_some]
        rw [updated, found] at notUpdated
        have absent := Option.not_isSome_iff_eq_none.mp (Bool.eq_false_iff.mp notUpdated)
        have named := attentive.own before operation image wasCall wasFetching isServing isFetched absent
        rw [(step.quiet_of_serving isServing wasFetching).stored,
          not_stored_of_fetched tracked.reached isFetched absent named]
        exact Bool.or_true _
    · rw [if_neg isThread] at updated
      rw [step.progress_of_ne isThread] at isDecided
      rw [tracked.updated other before wasCall isDecided (updated.symm.trans notUpdated)]
      rfl
  answered other call operation winner isCall waits isReply := by
    obtain ⟨before, wasCall, _, missed, _⟩ := act_calls isCall
    change next.progress other = .waiting operation winner at waits
    change next.replies other = some ⟨false, false⟩ at isReply
    rw [missed]
    rcases step.reply_cases isReply with wasReply | isDrained | ⟨serving, request, rest, isServing, isQueue, isOwn, isNext⟩
    · rcases step.waiting_cases waits with wasWaiting | ⟨isThread, isAdmitted, _⟩
      · rw [tracked.answered other before operation winner wasCall wasWaiting wasReply]
        rfl
      · -- a request that is pushed has no reply
        rw [isThread, step.unanswered_of_admitted isAdmitted] at isReply
        cases isReply
    · cases isDrained
    · have answer := obeys.serves serving request rest ⟨false, false⟩ isServing isNext
      split at answer
      next isUpdate =>
        obtain ⟨image, isFetched, given⟩ := answer
        have inQueue : request ∈ state.machine.requests thread := by
          rw [isQueue]
          exact List.mem_cons_self
        rw [← isOwn] at wasCall
        have tag := tracked.asked thread request inQueue before wasCall
        have absent : image.find before.key.val = none := by
          rw [← tag]
          exact Option.not_isSome_iff_eq_none.mp (Bool.eq_false_iff.mp (congrArg Reply.succeed given).symm)
        have named := attentive.served before serving request rest ⟨false, false⟩ image wasCall isServing isUpdate
          isNext isFetched absent
        have quiet : Quiet state.machine next := by
          rw [isNext]
          exact ⟨rfl, rfl⟩
        rw [quiet.stored, not_stored_of_fetched tracked.reached isFetched absent named]
        exact Bool.or_true _
      next =>
        rcases answer with succeeds | retries
        · cases succeeds
        · cases retries
  asked winner request isMember call isCall := by
    obtain ⟨before, wasCall, key, _, _⟩ := act_calls isCall
    rw [key]
    rcases step.request_cases isMember with isOld | ⟨operation, isOwn, isAdmitted, _⟩
    · exact tracked.asked winner request isOld before wasCall
    · rw [isOwn] at wasCall
      exact obeys.asks before operation winner wasCall isAdmitted request isMember isOwn
  truthful isReturn isMember isFalse := by
    rcases act_returns isMember with isOld | ⟨call, result, isCall, isEnding, rfl⟩
    · exact tracked.truthful isReturn isOld isFalse
    · change result = false at isFalse
      change (call.missed || !next.stored call.key) = true
      rw [isFalse] at isEnding
      unfold ending at isEnding
      split at isEnding
      next operation isReleased _ =>
        rw [tracked.updated thread call isCall (by rw [isReleased]; rfl) (Option.some.inj isEnding)]
        rfl
      next operation winner isLost isIdle =>
        rw [(step.quiet_of_lost isLost).stored, attentive.otherType call operation winner isCall isLost isIdle]
        exact Bool.or_true _
      next operation winner isWaiting _ =>
        split at isEnding
        next reply isReply =>
          split at isEnding
          next => cases isEnding
          next notRetry =>
            have isRefused : reply = ⟨false, false⟩ := by
              obtain ⟨succeed, retry⟩ := reply
              rw [Bool.not_eq_true] at notRetry
              cases notRetry
              cases isEnding
              rfl
            rw [isRefused] at isReply
            rw [tracked.answered thread call operation winner isCall isWaiting isReply]
            rfl
        next => cases isEnding
      next => cases isEnding

theorem Tracked.called (tracked : Tracked state) (key : Bytes16) (isIdle : state.machine.progress thread = .idle) :
    Tracked { state with
      calls := Function.update state.calls thread (some ⟨key, !state.machine.stored key, false⟩) } where
  reached := tracked.reached
  updated other call isCall isDecided := by
    change Function.update state.calls thread _ other = some call at isCall
    change (state.machine.progress other).decided = true at isDecided
    by_cases isThread : other = thread
    · rw [isThread, isIdle] at isDecided
      cases isDecided
    · rw [Function.update_of_ne isThread] at isCall
      exact tracked.updated other call isCall isDecided
  answered other call operation winner isCall waits := by
    change Function.update state.calls thread _ other = some call at isCall
    change state.machine.progress other = .waiting operation winner at waits
    by_cases isThread : other = thread
    · rw [isThread, isIdle] at waits
      cases waits
    · rw [Function.update_of_ne isThread] at isCall
      exact tracked.answered other call operation winner isCall waits
  asked winner request isMember call isCall := by
    change Function.update state.calls thread _ request.requester = some call at isCall
    by_cases isThread : request.requester = thread
    · -- an idle thread has no request in a queue
      obtain ⟨⟨operation, waits⟩, _⟩ := tracked.reached.queued.waits winner request isMember
      rw [isThread, isIdle] at waits
      cases waits
    · rw [Function.update_of_ne isThread] at isCall
      exact tracked.asked winner request isMember call isCall
  truthful := tracked.truthful

theorem Tracked.unnamed (tracked : Tracked state)
    (notNamed : state.machine.slist.fuzzySearch call.key.val = none) :
    Tracked { state with
      calls := Function.update state.calls thread none
      returns := ⟨call.key, false, (observe state.machine call).missed⟩ :: state.returns } where
  reached := tracked.reached
  updated other call isCall isDecided := by
    change Function.update state.calls thread none other = some call at isCall
    by_cases isThread : other = thread
    · rw [isThread, Function.update_self] at isCall
      cases isCall
    · rw [Function.update_of_ne isThread] at isCall
      exact tracked.updated other call isCall isDecided
  answered other call operation winner isCall waits := by
    change Function.update state.calls thread none other = some call at isCall
    by_cases isThread : other = thread
    · rw [isThread, Function.update_self] at isCall
      cases isCall
    · rw [Function.update_of_ne isThread] at isCall
      exact tracked.answered other call operation winner isCall waits
  asked winner request isMember call isCall := by
    change Function.update state.calls thread none request.requester = some call at isCall
    by_cases isThread : request.requester = thread
    · rw [isThread, Function.update_self] at isCall
      cases isCall
    · rw [Function.update_of_ne isThread] at isCall
      exact tracked.asked winner request isMember call isCall
  truthful isReturn isMember isFalse := by
    rcases List.mem_cons.mp isMember with isNew | isOld
    · have notStored : state.machine.stored call.key = false := by
        unfold LockMachine.stored
        rw [notNamed]
      rw [isNew]
      change (call.missed || !state.machine.stored call.key) = true
      rw [notStored]
      exact Bool.or_true _
    · exact tracked.truthful isReturn isOld isFalse

/-- In a run whose steps are attentive, every `false` means that the key was not stored at some
moment of the call. -/
theorem updates_fail_for_absent_keys (run : UpdateRun Attentive state) : Truthful state := by
  have tracked : Tracked state := by
    induction run with
    | start started => exact tracked_start started
    | @step state next _ thread step attentive inductionHypothesis =>
        cases step with
        | act step obeys => exact inductionHypothesis.act step obeys attentive
        | call key isIdle noCall => exact inductionHypothesis.called key isIdle
        | unnamed isIdle isCall notNamed => exact inductionHypothesis.unnamed notNamed
  exact tracked.truthful

omit [Digest] in
theorem ne_of_routine {progress other : Progress} (isRoutine : progress.routine = true)
    (isOther : other.routine = false) : progress ≠ other := by
  rintro rfl
  rw [isOther] at isRoutine
  cases isRoutine

theorem routine_obeys (isRoutine : Progress.routine (state.machine.progress thread) = true) :
    Obeys state thread next where
  begins _ isIdle := absurd isIdle (ne_of_routine isRoutine rfl)
  asks _ _ _ _ isAdmitted := absurd isAdmitted (ne_of_routine isRoutine rfl)
  fetches _ _ _ isFetching := absurd isFetching (ne_of_routine isRoutine rfl)
  serves _ _ _ _ isServing := absurd isServing (ne_of_routine isRoutine rfl)

theorem routine_attentive (isRoutine : Progress.routine (state.machine.progress thread) = true) :
    Attentive thread state (state.act thread next) where
  otherType _ _ _ _ isLost := absurd isLost (ne_of_routine isRoutine rfl)
  own _ _ _ _ isFetching := absurd isFetching (ne_of_routine isRoutine rfl)
  served _ _ _ _ _ _ _ isServing := absurd isServing (ne_of_routine isRoutine rfl)

end UpdateMachine

end DiStore.Cluster

/-! ### An update beside a put -/

namespace DiStore.Cluster.UpdateMachine

open DiStore.Concurrency DiStore.DataLayer DiStore.SearchLayer LockMachine

attribute [local instance] Digests.source

/-- The threads after a flush; the first node has a record. -/
def oneStored : LockMachine :=
  afterFlush (((SkipList.empty 64).insert [1] 1024 .type10 1).insert [5] 2048 .type12 2)
    (fun address =>
      if address = 1024 then ((LinkedNode.fresh .type10 .zeroed).store 10 (Bytes16.fill 2).val (Bytes16.fill 9).val).2
      else .fresh .type12 .zeroed)
    [64, 1024, 2048]

theorem oneStored_started : Started oneStored := by
  obtain ⟨_, _, _, twoNodes⟩ := SkipList.insert_two_spec 64 (by decide : ([1] : Str) ≤ [5]) 1024 2048
    .type10 .type12 Nat.one_pos Nat.two_pos
  exact started_afterFlush twoNodes (by decide) (by decide) _

/-- An update of a key that is not stored wins the node and returns `false`. -/
theorem update_of_absent_key :
    ∃ state, state.returns = [⟨.fill 3, false, true⟩] ∧ Truthful state := by
  have start : UpdateRun Attentive (initial oneStored) := .start oneStored_started
  have called := start.step (.call (.fill 3) rfl rfl : UpdateStep 0 _ _)
    ⟨(fun _ _ _ _ isLost => by cases isLost), (fun _ _ _ _ isFetching => by cases isFetching),
      (fun _ _ _ _ _ _ _ isServing => by cases isServing)⟩
  have begun := called.step (.act (.begin ⟨.update, 1⟩ rfl (by decide) : Step 0 _ _) (by
    refine ⟨fun operation _ isDraining => ?_, (fun _ _ _ _ isAdmitted => by cases isAdmitted),
      (fun _ _ _ isFetching => by cases isFetching), (fun _ _ _ _ isServing => by cases isServing)⟩
    change Progress.draining ⟨.update, 1⟩ = _ at isDraining
    cases isDraining
    exact ⟨rfl, by decide +kernel⟩))
    ⟨(fun _ _ _ _ isLost => by cases isLost), (fun _ _ _ _ isFetching => by cases isFetching),
      (fun _ _ _ _ _ _ _ isServing => by cases isServing)⟩
  have drained := begun.step (.act (.drained rfl rfl : Step 0 _ _) (routine_obeys rfl)) (routine_attentive rfl)
  have typed := drained.step (.act (.setType (.inr ⟨rfl, rfl⟩) : Step 0 _ _) (routine_obeys rfl))
    (routine_attentive rfl)
  have won := typed.step (.act (.winTarget rfl rfl : Step 0 _ _) (routine_obeys rfl)) (routine_attentive rfl)
  have opened := won.step (.act (.openWindow rfl : Step 0 _ _) (routine_obeys rfl)) (routine_attentive rfl)
  have fetched := opened.step (.act (.fetch rfl List.mem_cons_self : Step 0 _ _)
    ⟨(fun _ isIdle => by cases isIdle), (fun _ _ _ _ isAdmitted => by cases isAdmitted),
      (fun _ _ _ _ isServing => by cases isServing), (fun _ _ _ _ isServing => by cases isServing)⟩)
    ⟨(fun _ _ _ _ isLost => by cases isLost), (fun _ _ _ _ _ isServing => by cases isServing),
      (fun _ _ _ _ _ _ _ isServing => by cases isServing)⟩
  have closed := fetched.step (.act (.closeWindow rfl : Step 0 _ _)
    ⟨(fun _ isIdle => by cases isIdle), (fun _ _ _ _ isAdmitted => by cases isAdmitted),
      (fun _ operation _ isFetching _ => by cases isFetching; exact ⟨_, rfl⟩),
      (fun _ _ _ _ isServing => by cases isServing)⟩)
    ⟨(fun _ _ _ _ isLost => by cases isLost), (fun call operation image isCall isFetching _ _ _ => by
      cases isFetching
      cases isCall
      decide +kernel), (fun _ _ _ _ _ _ _ isServing => by cases isServing)⟩
  have finished := closed.step (.act (.finish rfl rfl : Step 0 _ _)
    ⟨(fun _ isIdle => by cases isIdle), (fun _ _ _ _ isAdmitted => by cases isAdmitted),
      (fun _ _ _ isFetching => by cases isFetching), (fun _ _ _ _ _ isAnswer => by
        cases congrArg (fun next : LockMachine => next.progress 0) isAnswer)⟩)
    ⟨(fun _ _ _ _ isLost => by cases isLost), (fun _ _ _ _ isFetching => by cases isFetching),
      (fun _ _ _ _ _ _ _ _ _ isAnswer => by
        cases congrArg (fun next : LockMachine => next.progress 0) isAnswer)⟩
  have released := finished.step (.act (.releaseTarget rfl : Step 0 _ _) (routine_obeys rfl)) (routine_attentive rfl)
  have returned := released.step (.act (.reset rfl : Step 0 _ _) (routine_obeys rfl)) (routine_attentive rfl)
  exact ⟨_, by decide +kernel, updates_fail_for_absent_keys returned⟩

/-- A put holds the node of a stored key while it is updated. -/
theorem update_beside_put_fails :
    ¬ ∀ state, UpdateRun (fun _ _ _ => True) state → Truthful state := by
  intro always
  have start : UpdateRun (fun _ _ _ => True) (initial oneStored) := .start oneStored_started
  have called := start.step (.call (.fill 2) rfl rfl : UpdateStep 1 _ _) trivial
  have begun := called.step (.act (.begin ⟨.insert, 1⟩ rfl (by decide) : Step 0 _ _) (by
    refine ⟨fun operation _ isDraining => ?_, (fun _ _ _ isCall => by cases isCall),
      (fun _ _ isCall => by cases isCall), (fun _ _ _ _ isServing => by cases isServing)⟩
    change Progress.draining ⟨.insert, 1⟩ = _ at isDraining
    cases isDraining
    rfl)) trivial
  have drained := begun.step (.act (.drained rfl rfl : Step 0 _ _) (routine_obeys rfl)) trivial
  have barred := drained.step (.act (.bar rfl rfl : Step 0 _ _) (routine_obeys rfl)) trivial
  have typed := barred.step (.act (.setType (.inl rfl) : Step 0 _ _) (routine_obeys rfl)) trivial
  have target := typed.step (.act (.winTarget rfl rfl : Step 0 _ _) (routine_obeys rfl)) trivial
  have otherBegun := target.step (.act (.begin ⟨.update, 1⟩ rfl (by decide +kernel) : Step 1 _ _) (by
    refine ⟨fun operation _ isDraining => ?_, (fun _ _ _ _ isAdmitted => by cases isAdmitted),
      (fun _ _ _ isFetching => by cases isFetching), (fun _ _ _ _ isServing => by cases isServing)⟩
    change Progress.draining ⟨.update, 1⟩ = _ at isDraining
    cases isDraining
    exact ⟨rfl, by decide +kernel⟩)) trivial
  have otherDrained := otherBegun.step (.act (.drained rfl rfl : Step 1 _ _) (routine_obeys rfl)) trivial
  have otherTyped := otherDrained.step (.act (.setType (.inr ⟨rfl, rfl⟩) : Step 1 _ _) (routine_obeys rfl)) trivial
  have lost := otherTyped.step (.act (.loseTarget rfl rfl : Step 1 _ _) (routine_obeys rfl)) trivial
  have returned := lost.step (.act (.otherType rfl (by decide) : Step 1 _ _)
    ⟨(fun _ isIdle => by cases isIdle), (fun _ _ _ _ isAdmitted => by cases isAdmitted),
      (fun _ _ _ isFetching => by cases isFetching), (fun _ _ _ _ isServing => by cases isServing)⟩) trivial
  have missed := always _ returned _ List.mem_cons_self rfl
  revert missed
  decide +kernel

end DiStore.Cluster.UpdateMachine
