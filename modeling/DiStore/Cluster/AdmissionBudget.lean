import DiStore.Cluster.Handovers

/-!
Contract: how many requests a winner serves.

Owns: the threads with a count of what each winner pops and of what its morph or split was
planned for, and the runs in which both stay within the budget of `max_depth`.

`max_depth` is 4 while a window is open, but also before the first operation of a context
and after each one, and an admitted thread may push at any later time. Both can bring a
winner more requests than its own window has granted.
-/

set_option autoImplicit false

namespace DiStore.Cluster

open DiStore.Concurrency DiStore.DataLayer DiStore.SearchLayer

/-- What a morph or a split is planned for: the requests that `unsafe_size` counted, and how
many have been applied since. -/
structure PlannedWork where
  counted : Nat
  applied : Nat
deriving DecidableEq

structure CountedMachine where
  machine : LockMachine
  /-- the requests a thread has popped and answered since it won -/
  popped : ThreadId → Nat
  planned : ThreadId → Option PlannedWork

/-- Past `drain_pending`, and no window opened yet. -/
def Progress.fresh : Progress → Bool
  | .drained _ => true
  | .barred _ => true
  | .typed _ => true
  | .holdsTarget _ => true
  | .won _ => true
  | _ => false

namespace CountedMachine

open LockMachine

def initial (machine : LockMachine) : CountedMachine := ⟨machine, fun _ => 0, fun _ => none⟩

/-- A winner counts from its win on, and answers while it serves. -/
def act (state : CountedMachine) (thread : ThreadId) (next : LockMachine) : CountedMachine :=
  let answered := next.answers.length - state.machine.answers.length
  match state.machine.progress thread with
  | .won _ =>
      { machine := next
        popped := Function.update state.popped thread 0
        planned := Function.update state.planned thread none }
  | .serving _ =>
      { machine := next
        popped := Function.update state.popped thread (state.popped thread + answered)
        planned := Function.update state.planned thread
          ((state.planned thread).map fun work => { work with applied := work.applied + answered }) }
  | _ => { state with machine := next }

inductive CountedStep (thread : ThreadId) : CountedMachine → CountedMachine → Prop where
  | act {state : CountedMachine} {next : LockMachine} (step : Step thread state.machine next) :
      CountedStep thread state (state.act thread next)
  /-- the `unsafe_size()` that the morph or the split is chosen by -/
  | plan {state : CountedMachine} {operation : Operation}
      (isServing : state.machine.progress thread = .serving operation) (isInsert : operation.type = .insert)
      (notPlanned : state.planned thread = none) :
      CountedStep thread state { state with
        planned := Function.update state.planned thread
          (some ⟨(state.machine.requests thread).length, 0⟩) }

/-- A run in which every step meets the condition. -/
inductive CountedRun (condition : ThreadId → CountedMachine → CountedMachine → Prop) : CountedMachine → Prop where
  | start {machine : LockMachine} (started : Started machine) : CountedRun condition (initial machine)
  | step {state next : CountedMachine} (before : CountedRun condition state) {thread : ThreadId}
      (step : CountedStep thread state next) (meets : condition thread state next) : CountedRun condition next

/-- At most four requests are popped, no more are applied than were counted, and a node that
was not too full takes them and the winner's own record. -/
structure WithinBudget (state : CountedMachine) : Prop where
  popped : ∀ thread, state.popped thread ≤ 4
  planned : ∀ thread work, state.planned thread = some work → work.applied ≤ work.counted ∧ work.counted ≤ 4
  sized : ∀ thread (type : LinkedNodeType) (node : LinkedNode), node.next ≤ type.capacity →
    node.next + (1 + state.popped thread) ≤ type.capacity + 5

/-- A step that keeps to the budget: a thread is admitted only through the window that is
open, and when the winner counts its requests, and when its last pass ends, every admitted
thread has pushed. -/
structure Budgeted (thread : ThreadId) (state next : CountedMachine) : Prop where
  admission : ∀ operation winner, state.machine.progress thread = .passed operation winner →
    next.machine.progress thread = .admitted operation winner →
      ∃ published, state.machine.progress winner = .fetching published
  sample : state.planned thread = none → next.planned thread ≠ none →
    ∀ other asked, state.machine.progress other ≠ .admitted asked thread
  lastPass : ∀ operation, state.machine.progress thread = .serving operation →
    next.machine.progress thread = .served operation →
      ∀ other asked, state.machine.progress other ≠ .admitted asked thread

end CountedMachine

/-! ### Steps of the others -/

namespace LockMachine

variable {state next : LockMachine} {thread other winner : ThreadId} {operation : Operation}

def maxDepth (state : LockMachine) (winner : ThreadId) : Int := (state.contexts winner).maxDepth

/-- What a step of another thread does to a context and its queue. -/
inductive ForeignChange (thread winner : ThreadId) (before after : LockMachine) : Prop where
  | none (requests : after.requests winner = before.requests winner)
      (depth : after.maxDepth winner ≤ before.maxDepth winner)
      (notBefore : ∀ asked, before.progress thread ≠ .admitted asked winner)
      (notAfter : ∀ asked, after.progress thread ≠ .admitted asked winner)
  | granted (asked : Operation) (isPassed : before.progress thread = .passed asked winner)
      (isAdmitted : after.progress thread = .admitted asked winner)
      (positive : 0 < before.maxDepth winner) (depth : after.maxDepth winner = before.maxDepth winner - 1)
      (requests : after.requests winner = before.requests winner)
  | pushed (asked : Operation) (request : ConcurrencyRequest)
      (isAdmitted : before.progress thread = .admitted asked winner)
      (isWaiting : after.progress thread = .waiting asked winner)
      (depth : after.maxDepth winner = before.maxDepth winner)
      (requests : after.requests winner = before.requests winner ++ [request])

theorem maxDepth_setContext (context : ConcurrencyContext) :
    (state.setContext thread context).maxDepth winner =
      if winner = thread then context.maxDepth else state.maxDepth winner := by
  change (Function.update state.contexts thread context winner).maxDepth = _
  by_cases same : winner = thread
  · rw [if_pos same, same, Function.update_self]
  · rw [if_neg same, Function.update_of_ne same]
    rfl

theorem requests_setMaxDepth (depth : Int) : (state.setMaxDepth thread depth).requests = state.requests :=
  requests_setContext_same rfl

/-- A thread that is neither admitted by a context nor about to be leaves it alone. -/
theorem Step.foreignChange_none (step : Step thread state next)
    (context : next.contexts winner = state.contexts winner)
    (notAdmitted : ∀ asked, state.progress thread ≠ .admitted asked winner)
    (notPassed : ∀ asked, state.progress thread ≠ .passed asked winner) :
    ForeignChange thread winner state next := by
  apply ForeignChange.none
  · exact congrArg ConcurrencyContext.requests context
  · exact le_of_eq (congrArg ConcurrencyContext.maxDepth context)
  · exact notAdmitted
  · intro asked isAdmitted
    rcases step.admitted_cases isAdmitted with isOld | ⟨_, isPassed⟩
    · exact notAdmitted asked isOld
    · exact notPassed asked isPassed

theorem Step.foreignChange (step : Step thread state next) (differs : winner ≠ thread) :
    ForeignChange thread winner state next := by
  by_cases admitted : ∃ asked, state.progress thread = .admitted asked winner
  · obtain ⟨asked, isAdmitted⟩ := admitted
    cases step
    case enqueue operation target tag content isOther =>
      rw [isAdmitted] at isOther
      obtain ⟨rfl, rfl⟩ := Progress.admitted.inj isOther
      apply ForeignChange.pushed asked ⟨thread, tag, content⟩ isAdmitted
      · exact Function.update_self _ _ _
      · change (state.push winner ⟨thread, tag, content⟩).maxDepth winner = _
        unfold push
        exact (maxDepth_setContext _).trans (if_pos rfl)
      · change (state.push winner ⟨thread, tag, content⟩).requests winner = _
        rw [requests_push, Function.update_self]
    all_goals simp_all
  · by_cases passed : ∃ asked, state.progress thread = .passed asked winner
    · obtain ⟨asked, isPassed⟩ := passed
      cases step
      case grant operation target isOther positive =>
        rw [isPassed] at isOther
        obtain ⟨rfl, rfl⟩ := Progress.passed.inj isOther
        apply ForeignChange.granted asked isPassed (Function.update_self _ _ _) positive
        · exact (maxDepth_setContext _).trans (if_pos rfl)
        · exact congrFun (requests_setMaxDepth _) winner
      case refuse operation target isOther notPositive =>
        rw [isPassed] at isOther
        obtain ⟨rfl, rfl⟩ := Progress.passed.inj isOther
        apply ForeignChange.none
        · exact congrFun (requests_setMaxDepth _) winner
        · refine le_of_eq_of_le ((maxDepth_setContext _).trans (if_pos rfl)) ?_
          change state.maxDepth winner - 1 ≤ state.maxDepth winner
          omega
        · intro other
          rw [isPassed]
          nofun
        · intro other
          rw [progress_setProgress, Function.update_self]
          nofun
      all_goals simp_all
    · apply step.foreignChange_none
      · cases step
        case grant operation target isPassed _ =>
          have isOther : winner ≠ target := by
            rintro rfl
            exact passed ⟨operation, isPassed⟩
          exact Function.update_of_ne isOther _ _
        case refuse operation target isPassed _ =>
          have isOther : winner ≠ target := by
            rintro rfl
            exact passed ⟨operation, isPassed⟩
          exact Function.update_of_ne isOther _ _
        case enqueue operation target _ _ isAdmitted =>
          have isOther : winner ≠ target := by
            rintro rfl
            exact admitted ⟨operation, isAdmitted⟩
          exact Function.update_of_ne isOther _ _
        all_goals first
          | rfl
          | exact Function.update_of_ne differs _ _
      · exact fun asked isAdmitted => admitted ⟨asked, isAdmitted⟩
      · exact fun asked isPassed => passed ⟨asked, isPassed⟩

/-! ### Steps of the winner -/

/-- A thread that is past `drain_pending` and has opened no window has an empty queue. -/
theorem Step.fresh_cases (step : Step thread state next) (isFresh : (next.progress thread).fresh = true)
    (wasEmpty : (state.progress thread).fresh = true → state.requests thread = []) :
    next.requests thread = [] := by
  cases step
  case drained isDraining isEmpty => exact isEmpty
  case bar isDrained isInsert =>
    exact (congrFun (requests_setMaxDepth _) thread).trans (wasEmpty (by rw [isDrained]; rfl))
  case setType operation isReady =>
    have same : (state.setContext thread { state.contexts thread with type := operation.type }).requests =
        state.requests := requests_setContext_same rfl
    refine (congrFun same thread).trans (wasEmpty ?_)
    rcases isReady with isBarred | ⟨isDrained, _⟩
    · rw [isBarred]
      rfl
    · rw [isDrained]
      rfl
  case winTarget isTyped isFree => exact wasEmpty (by rw [isTyped]; rfl)
  case winPred holds isPred isFree => exact wasEmpty (by rw [holds]; rfl)
  case drain isBefore isQueue =>
    change (state.progress thread).fresh = true at isFresh
    rcases isBefore with isIdle | ⟨operation, isDraining⟩
    · rw [isIdle] at isFresh
      cases isFresh
    · rw [isDraining] at isFresh
      cases isFresh
  case releaseTarget isServed =>
    rw [progress_setProgress, Function.update_self] at isFresh
    split at isFresh <;> cases isFresh
  all_goals first
    | rw [progress_setProgress, Function.update_self] at isFresh
      cases isFresh
    | change (state.progress thread).fresh = true at isFresh
      simp_all [Progress.fresh]

/-- A window opens with four admissions. -/
theorem Step.fetching_cases (step : Step thread state next) (isFetching : next.progress thread = .fetching operation) :
    next.requests thread = state.requests thread ∧
      (state.progress thread = .fetching operation ∧ next.maxDepth thread = state.maxDepth thread ∨
        state.progress thread = .won operation ∧ next.maxDepth thread = 4) := by
  cases step
  case openWindow isWon =>
    rw [progress_setProgress, Function.update_self] at isFetching
    cases isFetching
    exact ⟨congrFun (requests_setMaxDepth _) thread, .inr ⟨isWon, (maxDepth_setContext _).trans (if_pos rfl)⟩⟩
  case fetch => exact ⟨rfl, .inl ⟨isFetching, rfl⟩⟩
  case winTarget isTyped isFree =>
    rw [progress_setProgress, Function.update_self] at isFetching
    split at isFetching <;> cases isFetching
  case releaseTarget isServed =>
    rw [progress_setProgress, Function.update_self] at isFetching
    split at isFetching <;> cases isFetching
  all_goals first
    | rw [progress_setProgress, Function.update_self] at isFetching
      cases isFetching
    | change state.progress thread = .fetching operation at isFetching
      simp_all

/-- A winner that serves has closed its window, or has served before. -/
theorem Step.serving_cases (step : Step thread state next) (isServing : next.progress thread = .serving operation) :
    state.progress thread = .fetching operation ∧ next.requests thread = state.requests thread ∨
      state.progress thread = .serving operation := by
  cases step
  case closeWindow isFetching =>
    rw [progress_setProgress, Function.update_self] at isServing
    cases isServing
    exact .inl ⟨isFetching, congrFun (requests_setMaxDepth _) thread⟩
  case serve => exact .inr isServing
  case pushBack => exact .inr isServing
  case winTarget isTyped isFree =>
    rw [progress_setProgress, Function.update_self] at isServing
    split at isServing <;> cases isServing
  case releaseTarget isServed =>
    rw [progress_setProgress, Function.update_self] at isServing
    split at isServing <;> cases isServing
  all_goals first
    | rw [progress_setProgress, Function.update_self] at isServing
      cases isServing
    | exact .inr isServing

/-- A winner that serves moves requests from its queue to the answers. -/
theorem Step.serving_conserves (step : Step thread state next) (isServing : state.progress thread = .serving operation) :
    next.answers.length + (next.requests thread).length =
        state.answers.length + (state.requests thread).length ∧
      state.answers.length ≤ next.answers.length := by
  have rotated : ∀ (request : ConcurrencyRequest) (rest : List ConcurrencyRequest),
      state.requests thread = request :: rest →
      (state.setContext thread { state.contexts thread with requests := rest ++ [request] }).requests thread =
        rest ++ [request] ∧ (rest ++ [request]).length = (state.requests thread).length := by
    intro request rest isQueue
    rw [requests_setContext, Function.update_self, isQueue, List.length_append, List.length_cons]
    exact ⟨rfl, rfl⟩
  cases step
  case serve served request rest reply _ isQueue =>
    have queue : (state.answer thread request rest (some served) reply).requests thread = rest := by
      refine (congrFun (requests_setContext _) thread).trans ?_
      rw [Function.update_self]
    have answers : (state.answer thread request rest (some served) reply).answers.length =
        state.answers.length + 1 := rfl
    have before : state.requests thread = request :: rest := isQueue
    rw [queue, answers, before, List.length_cons]
    omega
  case pushBack served request rest _ _ isQueue =>
    obtain ⟨queue, length⟩ := rotated request rest isQueue
    rw [queue, length]
    exact ⟨rfl, le_rfl⟩
  case giveUpServing served request rest _ _ isQueue =>
    obtain ⟨queue, length⟩ := rotated request rest isQueue
    refine ⟨?_, le_rfl⟩
    change state.answers.length + ((state.setContext thread _).requests thread).length = _
    rw [queue, length]
  case finish => exact ⟨rfl, le_rfl⟩
  all_goals simp_all

end LockMachine

/-! ### The budget of a window -/

namespace CountedMachine

open LockMachine

variable {state next : CountedMachine} {thread winner : ThreadId}

/-- The threads that a context has admitted and that have not pushed, each once. -/
structure Admits (machine : LockMachine) (winner : ThreadId) (admitted : List ThreadId) : Prop where
  once : admitted.Nodup
  listed : ∀ other, other ∈ admitted ↔ ∃ asked, machine.progress other = .admitted asked winner

/-- What a winner has popped, what its queue holds, who is still to push and what the open
window can still grant add up to four. -/
structure InBudget (machine : LockMachine) (winner : ThreadId) (popped : Nat) (planned : Option PlannedWork) :
    Prop where
  attends : ∀ other asked, machine.progress other = .admitted asked winner →
    ∃ operation, machine.progress winner = .fetching operation ∨ machine.progress winner = .serving operation
  fresh : (machine.progress winner).fresh = true → machine.requests winner = []
  opened : ∀ operation, machine.progress winner = .fetching operation →
    planned = none ∧ ∃ admitted, Admits machine winner admitted ∧
      popped + (machine.requests winner).length + admitted.length + (machine.maxDepth winner).toNat ≤ 4
  serves : ∀ operation, machine.progress winner = .serving operation →
    ∃ admitted, Admits machine winner admitted ∧
      popped + (machine.requests winner).length + admitted.length ≤ 4
  bounded : popped ≤ 4
  counted : ∀ work, planned = some work → work.applied ≤ work.counted ∧ work.counted ≤ 4
  followed : ∀ operation work, machine.progress winner = .serving operation → planned = some work →
    (∀ other asked, machine.progress other ≠ .admitted asked winner) ∧
      work.applied + (machine.requests winner).length ≤ work.counted

theorem inBudget_start {machine : LockMachine} (started : Started machine) (winner : ThreadId) :
    InBudget machine winner 0 none := by
  have isIdle := started.idle
  constructor
  · intro other asked isAdmitted
    rw [isIdle] at isAdmitted
    cases isAdmitted
  · intro _
    exact started.noRequests winner
  · intro operation isFetching
    rw [isIdle] at isFetching
    cases isFetching
  · intro operation isServing
    rw [isIdle] at isServing
    cases isServing
  · exact Nat.zero_le 4
  · intro work isPlanned
    cases isPlanned
  · intro operation work isServing
    rw [isIdle] at isServing
    cases isServing

theorem Admits.empty {machine : LockMachine} (nobody : ∀ other asked, machine.progress other ≠ .admitted asked winner) :
    Admits machine winner [] where
  once := List.nodup_nil
  listed other := by
    constructor
    · intro isMember
      cases isMember
    · rintro ⟨asked, isAdmitted⟩
      exact absurd isAdmitted (nobody other asked)

/-- A step of a thread that is not and does not get admitted. -/
theorem Admits.frame {before after : LockMachine} {admitted : List ThreadId} (admits : Admits before winner admitted)
    (others : ∀ other, other ≠ thread → after.progress other = before.progress other)
    (notBefore : ∀ asked, before.progress thread ≠ .admitted asked winner)
    (notAfter : ∀ asked, after.progress thread ≠ .admitted asked winner) : Admits after winner admitted where
  once := admits.once
  listed other := by
    rw [admits.listed]
    by_cases isThread : other = thread
    · rw [isThread]
      constructor
      · rintro ⟨asked, isAdmitted⟩
        exact absurd isAdmitted (notBefore asked)
      · rintro ⟨asked, isAdmitted⟩
        exact absurd isAdmitted (notAfter asked)
    · rw [others other isThread]

theorem Admits.grant {before after : LockMachine} {admitted : List ThreadId} {asked : Operation}
    (admits : Admits before winner admitted)
    (others : ∀ other, other ≠ thread → after.progress other = before.progress other)
    (isPassed : before.progress thread = .passed asked winner)
    (isAdmitted : after.progress thread = .admitted asked winner) : Admits after winner (thread :: admitted) where
  once := by
    refine List.nodup_cons.mpr ⟨fun isMember => ?_, admits.once⟩
    obtain ⟨operation, wasAdmitted⟩ := (admits.listed thread).mp isMember
    rw [isPassed] at wasAdmitted
    cases wasAdmitted
  listed other := by
    rw [List.mem_cons]
    by_cases isThread : other = thread
    · rw [isThread]
      exact iff_of_true (.inl rfl) ⟨asked, isAdmitted⟩
    · rw [others other isThread, or_iff_right isThread]
      exact admits.listed other

theorem Admits.push {before after : LockMachine} {admitted : List ThreadId} {asked : Operation}
    (admits : Admits before winner admitted)
    (others : ∀ other, other ≠ thread → after.progress other = before.progress other)
    (wasAdmitted : before.progress thread = .admitted asked winner)
    (isWaiting : after.progress thread = .waiting asked winner) :
    Admits after winner (admitted.erase thread) ∧ (admitted.erase thread).length + 1 = admitted.length := by
  have isMember := (admits.listed thread).mpr ⟨asked, wasAdmitted⟩
  refine ⟨⟨admits.once.erase thread, fun other => ?_⟩, ?_⟩
  · rw [admits.once.mem_erase_iff]
    by_cases isThread : other = thread
    · rw [isThread]
      refine iff_of_false (fun both => both.1 rfl) ?_
      rintro ⟨operation, isAdmitted⟩
      rw [isWaiting] at isAdmitted
      cases isAdmitted
    · rw [others other isThread, and_iff_right isThread]
      exact admits.listed other
  · rw [List.length_erase_of_mem isMember]
    have positive := List.length_pos_of_mem isMember
    omega

/-- A step of another thread keeps to the budget of a winner. -/
theorem InBudget.foreign {machine after : LockMachine} {popped : Nat} {planned : Option PlannedWork}
    (inBudget : InBudget machine winner popped planned) (step : Step thread machine after)
    (admission : ∀ asked, machine.progress thread = .passed asked winner →
      after.progress thread = .admitted asked winner →
        ∃ published, machine.progress winner = .fetching published)
    (differs : winner ≠ thread) : InBudget after winner popped planned := by
  have sameProgress := step.progress_of_ne differs
  have others : ∀ other, other ≠ thread → after.progress other = machine.progress other :=
    fun other isOther => step.progress_of_ne isOther
  have attends : ∀ other asked, after.progress other = .admitted asked winner →
      ∃ operation, after.progress winner = .fetching operation ∨ after.progress winner = .serving operation := by
    intro other asked isAdmitted
    rw [sameProgress]
    rcases step.admitted_cases isAdmitted with isOld | ⟨isThread, isPassed⟩
    · exact inBudget.attends other asked isOld
    · obtain ⟨operation, isFetching⟩ := admission asked isPassed (isThread ▸ isAdmitted)
      exact ⟨operation, .inl isFetching⟩
  -- a plan is followed only when nobody is left to push
  have stillNobody : (∀ other asked, machine.progress other ≠ .admitted asked winner) →
      ∀ operation, machine.progress winner = .serving operation →
        ∀ other asked, after.progress other ≠ .admitted asked winner := by
    intro nobody operation isServing other asked isAdmitted
    rcases step.admitted_cases isAdmitted with isOld | ⟨isThread, isPassed⟩
    · exact nobody other asked isOld
    · obtain ⟨published, isFetching⟩ := admission asked isPassed (isThread ▸ isAdmitted)
      rw [isServing] at isFetching
      cases isFetching
  cases step.foreignChange differs with
  | none requests depth notBefore notAfter =>
      constructor
      · exact attends
      · rw [sameProgress, requests]
        exact inBudget.fresh
      · intro operation isFetching
        rw [sameProgress] at isFetching
        obtain ⟨notPlanned, admitted, admits, bound⟩ := inBudget.opened operation isFetching
        refine ⟨notPlanned, admitted, admits.frame others notBefore notAfter, ?_⟩
        rw [requests]
        omega
      · intro operation isServing
        rw [sameProgress] at isServing
        obtain ⟨admitted, admits, bound⟩ := inBudget.serves operation isServing
        refine ⟨admitted, admits.frame others notBefore notAfter, ?_⟩
        rw [requests]
        exact bound
      · exact inBudget.bounded
      · exact inBudget.counted
      · intro operation work isServing isPlanned
        rw [sameProgress] at isServing
        obtain ⟨nobody, bound⟩ := inBudget.followed operation work isServing isPlanned
        rw [requests]
        exact ⟨stillNobody nobody operation isServing, bound⟩
  | granted asked isPassed isAdmitted positive depth requests =>
      obtain ⟨published, isFetching⟩ := admission asked isPassed isAdmitted
      constructor
      · exact attends
      · rw [sameProgress, isFetching]
        intro isFresh
        cases isFresh
      · intro operation _
        obtain ⟨notPlanned, admitted, admits, bound⟩ := inBudget.opened published isFetching
        refine ⟨notPlanned, thread :: admitted, admits.grant others isPassed isAdmitted, ?_⟩
        rw [requests, List.length_cons, depth]
        omega
      · intro operation isServing
        rw [sameProgress, isFetching] at isServing
        cases isServing
      · exact inBudget.bounded
      · exact inBudget.counted
      · intro operation work isServing
        rw [sameProgress, isFetching] at isServing
        cases isServing
  | pushed asked request isAdmitted isWaiting depth requests =>
      constructor
      · exact attends
      · obtain ⟨operation, isOpen⟩ := inBudget.attends thread asked isAdmitted
        rw [sameProgress]
        intro isFresh
        rcases isOpen with isFetching | isServing
        · rw [isFetching] at isFresh
          cases isFresh
        · rw [isServing] at isFresh
          cases isFresh
      · intro operation isFetching
        rw [sameProgress] at isFetching
        obtain ⟨notPlanned, admitted, admits, bound⟩ := inBudget.opened operation isFetching
        obtain ⟨erased, length⟩ := admits.push others isAdmitted isWaiting
        refine ⟨notPlanned, admitted.erase thread, erased, ?_⟩
        rw [requests, List.length_append, List.length_singleton, depth]
        omega
      · intro operation isServing
        rw [sameProgress] at isServing
        obtain ⟨admitted, admits, bound⟩ := inBudget.serves operation isServing
        obtain ⟨erased, length⟩ := admits.push others isAdmitted isWaiting
        refine ⟨admitted.erase thread, erased, ?_⟩
        rw [requests, List.length_append, List.length_singleton]
        omega
      · exact inBudget.bounded
      · exact inBudget.counted
      · intro operation work isServing isPlanned
        rw [sameProgress] at isServing
        exact absurd isAdmitted ((inBudget.followed operation work isServing isPlanned).1 thread asked)

theorem act_popped_of_ne (state : CountedMachine) (next : LockMachine) (differs : winner ≠ thread) :
    (state.act thread next).popped winner = state.popped winner := by
  unfold act
  split <;> first | rfl | exact Function.update_of_ne differs _ _

theorem act_planned_of_ne (state : CountedMachine) (next : LockMachine) (differs : winner ≠ thread) :
    (state.act thread next).planned winner = state.planned winner := by
  unfold act
  split <;> first | rfl | exact Function.update_of_ne differs _ _

theorem act_machine (state : CountedMachine) (thread : ThreadId) (next : LockMachine) :
    (state.act thread next).machine = next := by
  unfold act
  split <;> rfl

theorem act_won {after : LockMachine} {operation : Operation}
    (isWon : state.machine.progress thread = .won operation) :
    (state.act thread after).popped thread = 0 ∧ (state.act thread after).planned thread = none := by
  unfold act
  rw [isWon]
  exact ⟨Function.update_self _ _ _, Function.update_self _ _ _⟩

theorem act_serving {after : LockMachine} {operation : Operation}
    (isServing : state.machine.progress thread = .serving operation) :
    (state.act thread after).popped thread =
        state.popped thread + (after.answers.length - state.machine.answers.length) ∧
      (state.act thread after).planned thread = (state.planned thread).map fun work =>
        { work with applied := work.applied + (after.answers.length - state.machine.answers.length) } := by
  unfold act
  rw [isServing]
  exact ⟨Function.update_self _ _ _, Function.update_self _ _ _⟩

theorem act_other {after : LockMachine}
    (notWon : ∀ operation, state.machine.progress thread ≠ .won operation)
    (notServing : ∀ operation, state.machine.progress thread ≠ .serving operation) :
    (state.act thread after).popped = state.popped ∧ (state.act thread after).planned = state.planned := by
  unfold act
  split
  next operation isWon => exact absurd isWon (notWon operation)
  next operation isServing => exact absurd isServing (notServing operation)
  next => exact ⟨rfl, rfl⟩

/-- The step of a winner keeps to its budget. -/
theorem InBudget.own {after : LockMachine}
    (inBudget : InBudget state.machine thread (state.popped thread) (state.planned thread))
    (step : Step thread state.machine after)
    (lastPass : ∀ operation, state.machine.progress thread = .serving operation →
      after.progress thread = .served operation →
        ∀ other asked, state.machine.progress other ≠ .admitted asked thread)
    (admission : ∀ asked, state.machine.progress thread = .passed asked thread →
      after.progress thread ≠ .admitted asked thread) :
    InBudget after thread ((state.act thread after).popped thread) ((state.act thread after).planned thread) := by
  have others : ∀ other, other ≠ thread → after.progress other = state.machine.progress other :=
    fun other isOther => step.progress_of_ne isOther
  -- the winner is not a request of its own
  have notBefore : ∀ asked, state.machine.progress thread ≠ .admitted asked thread := by
    intro asked isAdmitted
    obtain ⟨operation, isFetching | isServing⟩ := inBudget.attends thread asked isAdmitted
    · rw [isAdmitted] at isFetching
      cases isFetching
    · rw [isAdmitted] at isServing
      cases isServing
  have wasAdmitted : ∀ other asked, after.progress other = .admitted asked thread →
      state.machine.progress other = .admitted asked thread := by
    intro other asked isAdmitted
    rcases step.admitted_cases isAdmitted with isOld | ⟨isThread, isPassed⟩
    · exact isOld
    · exact absurd (isThread ▸ isAdmitted) (admission asked isPassed)
  have notAfter : ∀ asked, after.progress thread ≠ .admitted asked thread :=
    fun asked isAdmitted => notBefore asked (wasAdmitted thread asked isAdmitted)
  constructor
  · intro other asked isAdmitted
    have isOld := wasAdmitted other asked isAdmitted
    obtain ⟨operation, isFetching | isServing⟩ := inBudget.attends other asked isOld
    · exact ⟨operation, step.from_fetching isFetching⟩
    · rcases step.from_serving isServing with stillServing | isServed
      · exact ⟨operation, .inr stillServing⟩
      · exact absurd isOld (lastPass operation isServing isServed other asked)
  · intro isFresh
    exact step.fresh_cases isFresh inBudget.fresh
  · intro operation isFetching
    obtain ⟨requests, ⟨wasFetching, depth⟩ | ⟨wasWon, depth⟩⟩ := step.fetching_cases isFetching
    · obtain ⟨popped, planned⟩ := @act_other state thread after (by rw [wasFetching]; nofun)
        (by rw [wasFetching]; nofun)
      obtain ⟨notPlanned, admitted, admits, bound⟩ := inBudget.opened operation wasFetching
      rw [popped, planned, requests, depth]
      exact ⟨notPlanned, admitted, admits.frame others notBefore notAfter, bound⟩
    · obtain ⟨popped, planned⟩ := @act_won state thread after operation wasWon
      have nobody : ∀ other asked, after.progress other ≠ .admitted asked thread := by
        intro other asked isAdmitted
        obtain ⟨published, isOpen⟩ := inBudget.attends other asked (wasAdmitted other asked isAdmitted)
        rw [wasWon] at isOpen
        rcases isOpen with isOpen | isOpen <;> cases isOpen
      have isEmpty := inBudget.fresh (by rw [wasWon]; rfl)
      rw [popped, planned, requests, depth, isEmpty]
      exact ⟨rfl, [], .empty nobody, le_rfl⟩
  · intro operation isServing
    rcases step.serving_cases isServing with ⟨wasFetching, requests⟩ | wasServing
    · obtain ⟨popped, planned⟩ := @act_other state thread after (by rw [wasFetching]; nofun)
        (by rw [wasFetching]; nofun)
      obtain ⟨_, admitted, admits, bound⟩ := inBudget.opened operation wasFetching
      rw [popped, requests]
      exact ⟨admitted, admits.frame others notBefore notAfter, by omega⟩
    · obtain ⟨popped, _⟩ := @act_serving state thread after operation wasServing
      obtain ⟨conserved, _⟩ := step.serving_conserves wasServing
      obtain ⟨admitted, admits, bound⟩ := inBudget.serves operation wasServing
      rw [popped]
      exact ⟨admitted, admits.frame others notBefore notAfter, by omega⟩
  · by_cases wasWon : ∃ operation, state.machine.progress thread = .won operation
    · obtain ⟨operation, wasWon⟩ := wasWon
      rw [(@act_won state thread after operation wasWon).1]
      exact Nat.zero_le 4
    · by_cases wasServing : ∃ operation, state.machine.progress thread = .serving operation
      · obtain ⟨operation, wasServing⟩ := wasServing
        obtain ⟨conserved, _⟩ := step.serving_conserves wasServing
        obtain ⟨admitted, _, bound⟩ := inBudget.serves operation wasServing
        rw [(@act_serving state thread after operation wasServing).1]
        omega
      · rw [(@act_other state thread after (fun operation isWon => wasWon ⟨operation, isWon⟩)
          (fun operation isServing => wasServing ⟨operation, isServing⟩)).1]
        exact inBudget.bounded
  · intro work isPlanned
    by_cases wasWon : ∃ operation, state.machine.progress thread = .won operation
    · obtain ⟨operation, wasWon⟩ := wasWon
      rw [(@act_won state thread after operation wasWon).2] at isPlanned
      cases isPlanned
    · by_cases wasServing : ∃ operation, state.machine.progress thread = .serving operation
      · obtain ⟨operation, wasServing⟩ := wasServing
        rw [(@act_serving state thread after operation wasServing).2] at isPlanned
        obtain ⟨before, wasPlanned, rfl⟩ := Option.map_eq_some_iff.mp isPlanned
        obtain ⟨conserved, _⟩ := step.serving_conserves wasServing
        obtain ⟨_, bound⟩ := inBudget.followed operation before wasServing wasPlanned
        refine ⟨?_, (inBudget.counted before wasPlanned).2⟩
        change before.applied + _ ≤ before.counted
        omega
      · rw [(@act_other state thread after (fun operation isWon => wasWon ⟨operation, isWon⟩)
          (fun operation isServing => wasServing ⟨operation, isServing⟩)).2] at isPlanned
        exact inBudget.counted work isPlanned
  · intro operation work isServing isPlanned
    rcases step.serving_cases isServing with ⟨wasFetching, _⟩ | wasServing
    · rw [(@act_other state thread after (by rw [wasFetching]; nofun) (by rw [wasFetching]; nofun)).2,
        (inBudget.opened operation wasFetching).1] at isPlanned
      cases isPlanned
    · rw [(@act_serving state thread after operation wasServing).2] at isPlanned
      obtain ⟨before, wasPlanned, rfl⟩ := Option.map_eq_some_iff.mp isPlanned
      obtain ⟨conserved, _⟩ := step.serving_conserves wasServing
      obtain ⟨nobody, bound⟩ := inBudget.followed operation before wasServing wasPlanned
      refine ⟨fun other asked isAdmitted => nobody other asked (wasAdmitted other asked isAdmitted), ?_⟩
      change before.applied + _ + _ ≤ before.counted
      omega

/-- A plan counts what the queue holds while nobody is left to push. -/
theorem InBudget.plan {machine : LockMachine} {popped : Nat} {operation : Operation}
    (inBudget : InBudget machine winner popped none) (isServing : machine.progress winner = .serving operation)
    (nobody : ∀ other asked, machine.progress other ≠ .admitted asked winner) :
    InBudget machine winner popped (some ⟨(machine.requests winner).length, 0⟩) where
  attends := inBudget.attends
  fresh := inBudget.fresh
  opened other isFetching := by
    rw [isServing] at isFetching
    cases isFetching
  serves := inBudget.serves
  bounded := inBudget.bounded
  counted work isPlanned := by
    cases isPlanned
    obtain ⟨admitted, _, bound⟩ := inBudget.serves operation isServing
    refine ⟨Nat.zero_le _, ?_⟩
    change (machine.requests winner).length ≤ 4
    omega
  followed other work _ isPlanned := by
    cases isPlanned
    refine ⟨nobody, ?_⟩
    change 0 + (machine.requests winner).length ≤ (machine.requests winner).length
    omega

/-- In a budgeted run every winner keeps to the budget of its window. -/
theorem inBudget_of_run (run : CountedRun Budgeted state) :
    ∀ winner, InBudget state.machine winner (state.popped winner) (state.planned winner) := by
  induction run with
  | start started => exact inBudget_start started
  | @step state next _ thread step meets inductionHypothesis =>
      intro winner
      cases step with
      | @act after step =>
          have admission := meets.admission
          have lastPass := meets.lastPass
          rw [act_machine] at admission lastPass
          rw [act_machine]
          by_cases isThread : winner = thread
          · rw [isThread]
            apply (inductionHypothesis thread).own step lastPass
            intro asked isPassed isAdmitted
            obtain ⟨published, isFetching⟩ := admission asked thread isPassed isAdmitted
            rw [isPassed] at isFetching
            cases isFetching
          · rw [act_popped_of_ne state after isThread, act_planned_of_ne state after isThread]
            exact (inductionHypothesis winner).foreign step (fun asked => admission asked winner) isThread
      | @plan operation isServing isInsert notPlanned =>
          by_cases isThread : winner = thread
          · subst isThread
            have before := inductionHypothesis winner
            rw [notPlanned] at before
            have isNew : Function.update state.planned winner
                (some ⟨(state.machine.requests winner).length, 0⟩) winner ≠ none := by
              rw [Function.update_self]
              nofun
            have nobody := meets.sample notPlanned isNew
            have after := before.plan isServing nobody
            change InBudget state.machine winner (state.popped winner) (Function.update state.planned winner _ winner)
            rw [Function.update_self]
            exact after
          · change InBudget state.machine winner (state.popped winner) (Function.update state.planned thread _ winner)
            rw [Function.update_of_ne isThread]
            exact inductionHypothesis winner

/-- In a run whose steps keep to the budget, no winner serves more than four requests, none
beyond those it has planned for, and the sizes of `put10` to `put16` suffice. -/
theorem winners_within_budget (run : CountedRun Budgeted state) : WithinBudget state := by
  have inBudget := inBudget_of_run run
  constructor
  · intro thread
    exact (inBudget thread).bounded
  · intro thread work isPlanned
    exact (inBudget thread).counted work isPlanned
  · intro thread type node fits
    have bounded := (inBudget thread).bounded
    omega

/-! ### Two inserts -/

/-- A step of the machine samples nothing. -/
theorem act_planned_none (state : CountedMachine) (thread : ThreadId) (next : LockMachine)
    (notPlanned : state.planned thread = none) : (state.act thread next).planned thread = none := by
  unfold act
  split
  next => exact Function.update_self _ _ _
  next =>
    change Function.update state.planned thread _ thread = none
    rw [Function.update_self, notPlanned]
    rfl
  next => exact notPlanned

theorem plain_budgeted {after : LockMachine} (isPlain : Progress.plain (state.machine.progress thread) = true) :
    Budgeted thread state (state.act thread after) := by
  constructor
  · intro operation winner isPassed
    rw [isPassed] at isPlain
    cases isPlain
  · intro notPlanned isPlanned
    exact absurd (act_planned_none state thread after notPlanned) isPlanned
  · intro operation isServing
    rw [isServing] at isPlain
    cases isPlain

theorem CountedRun.imp {condition weaker : ThreadId → CountedMachine → CountedMachine → Prop}
    (implies : ∀ thread state next, condition thread state next → weaker thread state next)
    (run : CountedRun condition state) : CountedRun weaker state := by
  induction run with
  | start started => exact .start started
  | step _ step meets inductionHypothesis => exact inductionHypothesis.step step (implies _ _ _ meets)

/-- Thread 1 hands its insert over to thread 0. Its push comes before thread 0 counts, or
after. -/
theorem two_inserts :
    (∃ state, CountedRun Budgeted state ∧ state.popped 0 = 1 ∧ state.planned 0 = some ⟨1, 1⟩) ∧
      ∃ state, CountedRun (fun _ _ _ => True) state ∧ state.planned 0 = some ⟨0, 1⟩ := by
  obtain ⟨_, _, _, twoNodes⟩ := SkipList.insert_two_spec 64 (by decide : ([1] : Str) ≤ [5]) 1024 2048
    .type10 .type12 Nat.one_pos Nat.two_pos
  have start : CountedRun Budgeted (initial flushed) :=
    .start (started_afterFlush twoNodes (by decide) (by decide) _)
  have begun := start.step (.act (.begin ⟨.insert, 1⟩ rfl (by decide) : Step 0 flushed _)) (plain_budgeted rfl)
  have drained := begun.step (.act (.drained rfl rfl : Step 0 _ _)) (plain_budgeted rfl)
  have barred := drained.step (.act (.bar rfl rfl : Step 0 _ _)) (plain_budgeted rfl)
  have typed := barred.step (.act (.setType (.inl rfl) : Step 0 _ _)) (plain_budgeted rfl)
  have target := typed.step (.act (.winTarget rfl rfl : Step 0 _ _)) (plain_budgeted rfl)
  have both := target.step (.act (.winPred rfl rfl rfl : Step 0 _ _)) (plain_budgeted rfl)
  have otherBegun := both.step (.act (.begin ⟨.insert, 1⟩ rfl (by decide) : Step 1 _ _)) (plain_budgeted rfl)
  have otherDrained := otherBegun.step (.act (.drained rfl rfl : Step 1 _ _)) (plain_budgeted rfl)
  have otherBarred := otherDrained.step (.act (.bar rfl rfl : Step 1 _ _)) (plain_budgeted rfl)
  have otherTyped := otherBarred.step (.act (.setType (.inl rfl) : Step 1 _ _)) (plain_budgeted rfl)
  have lost := otherTyped.step (.act (.loseTarget rfl rfl : Step 1 _ _)) (plain_budgeted rfl)
  have contends := lost.step (.act (.contend rfl rfl : Step 1 _ _)) (plain_budgeted rfl)
  have opened := contends.step (.act (.openWindow rfl : Step 0 _ _)) (plain_budgeted rfl)
  have passed := opened.step (.act (.leaveLoop rfl (by decide) : Step 1 _ _)) (plain_budgeted rfl)
  have admitted := passed.step (.act (.grant rfl (by decide) : Step 1 _ _)) (by
    refine ⟨fun operation winner isPassed _ => ?_, fun _ isPlanned => absurd rfl isPlanned,
      (fun _ isServing => by cases isServing)⟩
    change Progress.passed ⟨.insert, 1⟩ 0 = _ at isPassed
    cases isPassed
    exact ⟨⟨.insert, 1⟩, rfl⟩)
  constructor
  · have pushed := admitted.step (.act (.enqueue (.fill 0) (.fill 0) rfl : Step 1 _ _)) (by
      refine ⟨(fun _ _ isPassed => by cases isPassed), fun _ isPlanned => absurd rfl isPlanned,
        (fun _ isServing => by cases isServing)⟩)
    have closed := pushed.step (.act (.closeWindow rfl : Step 0 _ _)) (plain_budgeted rfl)
    have planned := closed.step (.plan rfl rfl rfl : CountedStep 0 _ _) (by
      refine ⟨(fun _ _ isPassed => by cases isPassed), fun _ _ other asked isAdmitted => ?_,
        (fun _ _ isServed => by cases isServed)⟩
      match other with
      | 0 => cases isAdmitted
      | 1 => cases isAdmitted
      | other + 2 => cases isAdmitted)
    have served := planned.step (.act (.serve ⟨true, false⟩ rfl rfl : Step 0 _ _)) (by
      refine ⟨(fun _ _ isPassed => by cases isPassed), (fun notPlanned => by cases notPlanned),
        (fun _ _ isServed => by cases isServed)⟩)
    exact ⟨_, served, rfl, rfl⟩
  · have anyway := admitted.imp (fun _ _ _ _ => trivial : ∀ thread state next, Budgeted thread state next → True)
    have closed := anyway.step (.act (.closeWindow rfl : Step 0 _ _)) trivial
    have planned := closed.step (.plan rfl rfl rfl : CountedStep 0 _ _) trivial
    have pushed := planned.step (.act (.enqueue (.fill 0) (.fill 0) rfl : Step 1 _ _)) trivial
    have served := pushed.step (.act (.serve ⟨true, false⟩ rfl rfl : Step 0 _ _)) trivial
    exact ⟨_, served, rfl⟩

/-- The request that was counted is served. -/
theorem handover_within_budget : ∃ state, state.popped 0 = 1 ∧ state.planned 0 = some ⟨1, 1⟩ ∧
    WithinBudget state := by
  obtain ⟨⟨state, run, popped, planned⟩, _⟩ := two_inserts
  exact ⟨state, popped, planned, winners_within_budget run⟩

/-- The request that was not counted is served as well. -/
theorem late_push_beyond_plan : ¬ ∀ state, CountedRun (fun _ _ _ => True) state → WithinBudget state := by
  intro always
  obtain ⟨_, state, run, planned⟩ := two_inserts
  have isCounted := ((always state run).planned 0 _ planned).1
  exact absurd isCounted (by decide)

end CountedMachine

end DiStore.Cluster
