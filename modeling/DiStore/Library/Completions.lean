import Mathlib.Data.List.Flatten
import Mathlib.Logic.Function.Basic

/-!
Contract: work requests and the completions they generate.

Owns: a trace of posts and polls over arbitrary contexts and targets, when every poll of it
finds a completion, and how traces that settle all they post compose.

Does not own: what a request reads or writes, and the order of completions on one context.
-/

set_option autoImplicit false

namespace DiStore.Library

variable {γ τ : Type}

/-- A request is posted on a context, and generates a completion if it is signaled; or a
context, if there is one, is polled until a completion arrives. -/
inductive Access (γ τ : Type) where
  | post (context : γ) (target : τ) (signaled : Bool)
  | poll (context : Option γ)
deriving DecidableEq

variable [DecidableEq γ]

/-- With `pending` signaled requests outstanding on each context, every poll of the trace has a
context and a request to wait for, and no request is left at the end. -/
def Accounted (pending : γ → Nat) : List (Access γ τ) → Prop
  | [] => ∀ context, pending context = 0
  | .post context _ signaled :: rest =>
      Accounted (if signaled then Function.update pending context (pending context + 1) else pending) rest
  | .poll none :: _ => False
  | .poll (some context) :: rest =>
      0 < pending context ∧ Accounted (Function.update pending context (pending context - 1)) rest

/-- Whatever is outstanding before, the trace waits for its own requests and for no others. -/
def Settles (trace : List (Access γ τ)) : Prop :=
  ∀ (pending : γ → Nat) (rest : List (Access γ τ)), Accounted pending (trace ++ rest) ↔ Accounted pending rest

variable {trace first second : List (Access γ τ)} {context : γ} {target : τ}

theorem Settles.accounted (settles : Settles trace) : Accounted (fun _ => 0) trace := by
  have all := (settles (fun _ => 0) []).mpr fun _ => rfl
  rwa [List.append_nil] at all

theorem settles_nil : Settles ([] : List (Access γ τ)) := fun _ _ => Iff.rfl

theorem Settles.append (left : Settles first) (right : Settles second) : Settles (first ++ second) := by
  intro pending rest
  rw [List.append_assoc, left, right]

theorem settles_flatMap {α : Type} {attempts : List α} {accesses : α → List (Access γ τ)}
    (each : ∀ attempt ∈ attempts, Settles (accesses attempt)) : Settles (attempts.flatMap accesses) := by
  induction attempts with
  | nil => exact settles_nil
  | cons attempt attempts ih =>
    rw [List.flatMap_cons]
    apply (each attempt List.mem_cons_self).append
    exact ih fun later isLater => each later (List.mem_cons_of_mem _ isLater)

/-- An unsignaled request generates nothing to wait for. -/
theorem Settles.unsignaled (settles : Settles trace) : Settles (.post context target false :: trace) :=
  fun pending rest => settles pending rest

theorem accounted_post {pending : γ → Nat} :
    Accounted pending (.post context target true :: trace) ↔
      Accounted (Function.update pending context (pending context + 1)) trace := Iff.rfl

theorem accounted_poll {pending : γ → Nat} :
    Accounted pending ((.poll (some context) : Access γ τ) :: trace) ↔
      0 < pending context ∧ Accounted (Function.update pending context (pending context - 1)) trace := Iff.rfl

/-- A poll takes back what a post on its context added. -/
theorem accounted_poll_posted {pending : γ → Nat} :
    Accounted (Function.update pending context (pending context + 1))
        ((.poll (some context) : Access γ τ) :: trace) ↔ Accounted pending trace := by
  rw [accounted_poll, Function.update_self, Function.update_idem, Nat.add_sub_cancel, Function.update_eq_self]
  exact and_iff_right (Nat.succ_pos _)

/-- A signaled request that is waited for behind a settled trace. -/
theorem Settles.posted (settles : Settles trace) :
    Settles (.post context target true :: (trace ++ [.poll (some context)])) := by
  intro pending rest
  rw [List.cons_append, List.append_assoc, accounted_post, settles]
  exact accounted_poll_posted

theorem settles_request (context : γ) (target : τ) :
    Settles [.post context target true, .poll (some context)] :=
  settles_nil.posted

/-- Two requests on two contexts, waited for in the order they were posted. -/
theorem settles_parallel {other : γ} (differ : context ≠ other) (target next : τ) :
    Settles [.post context target true, .post other next true, .poll (some context), .poll (some other)] := by
  intro pending rest
  change Accounted pending
    (.post context target true :: .post other next true :: .poll (some context) :: .poll (some other) :: rest) ↔ _
  rw [accounted_post, accounted_post, Function.update_of_ne differ.symm, Function.update_comm differ]
  have swapped := @accounted_poll_posted γ τ _ (.poll (some other) :: rest) context
    (Function.update pending other (pending other + 1))
  rw [Function.update_of_ne differ] at swapped
  rw [swapped]
  exact accounted_poll_posted

end DiStore.Library
