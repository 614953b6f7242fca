import Mathlib.Logic.Relation
import Mathlib.Order.WellFounded

/-!
Contract: who waits for whom, over an arbitrary type of threads.

Owns: the graphs whose chains of waits all end, the edge that a thread adds when it
starts to wait for one that waits for nobody, and the thread a chain ends at.

Does not own: why a thread waits. The graph is any relation.
-/

set_option autoImplicit false

namespace DiStore.Library

variable {α : Type} {waits later : α → α → Prop}

/-- No chain of waits goes on for ever. -/
def WaitsEnd (waits : α → α → Prop) : Prop := WellFounded fun awaited waiter => waits waiter awaited

namespace WaitsEnd

theorem of_empty (nobody : ∀ waiter awaited, ¬ waits waiter awaited) : WaitsEnd waits :=
  ⟨fun waiter => ⟨waiter, fun awaited isWait => absurd isWait (nobody waiter awaited)⟩⟩

/-- Fewer waits end as well. -/
theorem mono (ends : WaitsEnd waits) (fewer : ∀ waiter awaited, later waiter awaited → waits waiter awaited) :
    WaitsEnd later :=
  Subrelation.wf (fun isWait => fewer _ _ isWait) ends

/-- One thread starts to wait for another that waits for nobody. -/
theorem add (ends : WaitsEnd waits) (waiter awaited : α) (isFree : ∀ other, ¬ later awaited other)
    (onlyOne : ∀ left right, later left right → waits left right ∨ left = waiter ∧ right = awaited) :
    WaitsEnd later := by
  have awaitedEnds : Acc (fun right left => later left right) awaited :=
    ⟨awaited, fun other isWait => absurd isWait (isFree other)⟩
  constructor
  intro thread
  -- along the chains there were before
  induction ends.apply thread with
  | intro thread _ inductionHypothesis =>
      constructor
      intro other isWait
      rcases onlyOne thread other isWait with isOld | ⟨_, isNew⟩
      · exact inductionHypothesis other isOld
      · rw [isNew]
        exact awaitedEnds

/-- Nobody waits for itself, through however many others. -/
theorem not_circular (ends : WaitsEnd waits) (thread : α) : ¬ Relation.TransGen waits thread thread := by
  intro circle
  have isWellFounded : WellFounded (Relation.TransGen fun awaited waiter => waits waiter awaited) :=
    WellFounded.transGen ends
  exact isWellFounded.irrefl.irrefl thread (Relation.transGen_swap.mpr circle)

/-- Every chain ends at a thread that waits for nobody. -/
theorem exists_end (ends : WaitsEnd waits) (thread : α) :
    ∃ last, Relation.ReflTransGen waits thread last ∧ ∀ other, ¬ waits last other := by
  induction ends.apply thread with
  | intro thread _ inductionHypothesis =>
      by_cases isWaiting : ∃ other, waits thread other
      · rcases isWaiting with ⟨other, isWait⟩
        rcases inductionHypothesis other isWait with ⟨last, isChain, isEnd⟩
        exact ⟨last, Relation.ReflTransGen.head isWait isChain, isEnd⟩
      · exact ⟨thread, Relation.ReflTransGen.refl, fun other isWait => isWaiting ⟨other, isWait⟩⟩

end WaitsEnd

end DiStore.Library
