import Mathlib.Data.List.Iterate
import Mathlib.Data.List.Nodup
import Mathlib.Logic.Function.Basic

/-!
Contract: singly linked chains over an arbitrary node type.

Owns: the relation between a successor function and the list of nodes it threads
together, insertion after a member, the walk that stops at the first node failing
a test, and where that walk ends on a chain whose passing nodes come first.

Does not own: what a node stores. The node type is abstract and the successor is
any function into `Option`.
-/

set_option autoImplicit false

namespace DiStore.Library

variable {α : Type} {next other : α → Option α} {passes : α → Bool}

/-- Following `next` from `node` visits exactly `rest`, in order, and stops. -/
def Linked (next : α → Option α) : α → List α → Prop
  | node, [] => next node = none
  | node, first :: rest => next node = some first ∧ Linked next first rest

namespace Linked

variable {node first last fresh : α} {rest before after : List α}

theorem next_eq_head? (linked : Linked next node rest) : next node = rest.head? := by
  cases rest with
  | nil => exact linked
  | cons first rest => exact linked.1

/-- Only the successors of the visited nodes matter. -/
theorem congr (agree : ∀ member ∈ node :: rest, other member = next member)
    (linked : Linked next node rest) : Linked other node rest := by
  induction rest generalizing node with
  | nil => exact (agree node (by simp)).trans linked
  | cons first rest ih =>
    refine ⟨(agree node (by simp)).trans linked.1, ih (fun member isMember => ?_) linked.2⟩
    exact agree member (List.mem_cons_of_mem _ isMember)

/-- A chain restarts at any of its members. -/
theorem suffix (linked : Linked next node (before ++ first :: after)) : Linked next first after := by
  induction before generalizing node with
  | nil => exact linked.2
  | cons head before ih => exact ih linked.2

/-- The last node of a prefix is followed by the first node behind the prefix. -/
theorem next_of_append (linked : Linked next node (before ++ after)) :
    next (before.getLastD node) = after.head? := by
  induction before generalizing node with
  | nil => exact linked.next_eq_head?
  | cons head before ih =>
    rw [List.getLastD_cons]
    exact ih linked.2

/-- A successor is a later member. -/
theorem next_mem {member : α} (linked : Linked next node rest) (isMember : member ∈ node :: rest)
    (isNext : next member = some first) : first ∈ rest := by
  induction rest generalizing node with
  | nil =>
    rw [List.mem_singleton.mp isMember] at isNext
    cases linked.symm.trans isNext
  | cons head rest ih =>
    rcases List.mem_cons.mp isMember with isNode | isLater
    · rw [isNode] at isNext
      rw [Option.some.inj (linked.1.symm.trans isNext)]
      exact List.mem_cons_self
    · exact List.mem_cons_of_mem _ (ih linked.2 isLater)

/-- Every node behind the first is the successor of one. -/
theorem exists_before (linked : Linked next node rest) (isMember : first ∈ rest) :
    ∃ member ∈ node :: rest, next member = some first := by
  induction rest generalizing node with
  | nil => cases isMember
  | cons head rest ih =>
    rcases List.mem_cons.mp isMember with isHead | isLater
    · rw [isHead]
      exact ⟨node, List.mem_cons_self, linked.1⟩
    · obtain ⟨member, inRest, isNext⟩ := ih linked.2 isLater
      exact ⟨member, List.mem_cons_of_mem _ inRest, isNext⟩

/-- No node is the successor of two. -/
theorem before_unique {left right : α} (linked : Linked next node rest) (nodup : (node :: rest).Nodup)
    (isLeft : left ∈ node :: rest) (isRight : right ∈ node :: rest) (ofLeft : next left = some first)
    (ofRight : next right = some first) : left = right := by
  induction rest generalizing node with
  | nil => exact (List.mem_singleton.mp isLeft).trans (List.mem_singleton.mp isRight).symm
  | cons head rest ih =>
    obtain ⟨_, later⟩ := List.nodup_cons.mp nodup
    -- nothing behind `head` leads back to it
    have notAgain : ∀ member ∈ head :: rest, next member ≠ some head := fun member inRest isNext =>
      (List.nodup_cons.mp later).1 (linked.2.next_mem inRest isNext)
    rcases List.mem_cons.mp isLeft with leftNode | leftLater
    · rcases List.mem_cons.mp isRight with rightNode | rightLater
      · rw [leftNode, rightNode]
      · rw [leftNode, linked.1] at ofLeft
        rw [← Option.some.inj ofLeft] at ofRight
        exact absurd ofRight (notAgain right rightLater)
    · rcases List.mem_cons.mp isRight with rightNode | rightLater
      · rw [rightNode, linked.1] at ofRight
        rw [← Option.some.inj ofRight] at ofLeft
        exact absurd ofLeft (notAgain left leftLater)
      · exact ih linked.2 later leftLater rightLater

/-- Where a second pointer leads from each node to what its successor stands for, following it
visits the whole chain. -/
theorem iterate_eq {β : Type} (linked : Linked next node rest) (jump : β → β) (place : α → β)
    (jumps : ∀ member ∈ node :: rest, ∀ follower, next member = some follower →
      jump (place member) = place follower) :
    List.iterate jump (place node) (rest.length + 1) = (node :: rest).map place := by
  induction rest generalizing node with
  | nil => rfl
  | cons head rest ih =>
    have ahead := jumps node List.mem_cons_self head linked.1
    have later := ih linked.2 fun member isMember => jumps member (List.mem_cons_of_mem _ isMember)
    rw [List.map_cons, ← later, ← ahead]
    rfl

variable [DecidableEq α]

/-- `fresh` spliced in behind `last`, taking over its successor. -/
def splice (next : α → Option α) (last fresh : α) : α → Option α :=
  Function.update (Function.update next fresh (next last)) last (some fresh)

theorem splice_last (next : α → Option α) (last fresh : α) :
    splice next last fresh last = some fresh := by
  simp [splice]

theorem splice_fresh (differs : fresh ≠ last) : splice next last fresh fresh = next last := by
  simp [splice, differs]

theorem splice_of_ne {member : α} (notLast : member ≠ last) (notFresh : member ≠ fresh) :
    splice next last fresh member = next member := by
  simp [splice, notLast, notFresh]

/-- Splicing behind the last node of `before` inserts between `before` and `after`. -/
theorem insert (linked : Linked next node (before ++ after))
    (nodup : (node :: (before ++ after)).Nodup) (isFresh : fresh ∉ node :: (before ++ after))
    (isLast : before.getLastD node = last) :
    Linked (splice next last fresh) node (before ++ fresh :: after) := by
  induction before generalizing node with
  | nil =>
    have same : node = last := isLast
    subst same
    have differs : fresh ≠ node := fun isNode => isFresh (by simp [isNode])
    refine ⟨splice_last next node fresh, ?_⟩
    cases after with
    | nil => exact (splice_fresh differs).trans linked
    | cons head after =>
      refine ⟨(splice_fresh differs).trans linked.1, linked.2.congr fun member isMember => ?_⟩
      refine splice_of_ne ?_ ?_
      · rintro rfl
        exact (List.nodup_cons.mp nodup).1 isMember
      · rintro rfl
        exact isFresh (List.mem_cons_of_mem _ isMember)
  | cons head before ih =>
    have fromHead : before.getLastD head = last := by
      rwa [List.getLastD_cons] at isLast
    have lastLater : last ∈ head :: (before ++ after) := by
      rw [← fromHead, ← List.cons_append]
      exact List.mem_append_left _ List.getLastD_mem_cons
    have notLast : node ≠ last := by
      rintro rfl
      exact (List.nodup_cons.mp nodup).1 lastLater
    have notFresh : node ≠ fresh := by
      rintro rfl
      exact isFresh (by simp)
    refine ⟨(splice_of_ne notLast notFresh).trans linked.1, ?_⟩
    exact ih linked.2 (List.nodup_cons.mp nodup).2
      (fun isMember => isFresh (List.mem_cons_of_mem _ isMember)) fromHead

/-- The successor of `last` skips the node behind it. -/
theorem unlink {node first : α} {before after : List α} (linked : Linked next node (before ++ first :: after))
    (nodup : (node :: (before ++ first :: after)).Nodup) :
    Linked (Function.update next (before.getLastD node) (next first)) node (before ++ after) := by
  induction before generalizing node with
  | nil =>
    have firstNext := linked.2.next_eq_head?
    change Linked (Function.update next node (next first)) node after
    cases after with
    | nil =>
      change Function.update next node (next first) node = none
      rw [Function.update_self]
      exact firstNext
    | cons second after =>
      refine ⟨by rw [Function.update_self]; exact firstNext, linked.2.2.congr fun member isMember => ?_⟩
      apply Function.update_of_ne
      rintro rfl
      exact (List.nodup_cons.mp nodup).1 (List.mem_cons_of_mem _ isMember)
  | cons head before ih =>
    obtain ⟨notLater, later⟩ := List.nodup_cons.mp nodup
    rw [List.getLastD_cons]
    refine ⟨?_, ih linked.2 later⟩
    rw [Function.update_of_ne, linked.1]
    have inLater : before.getLastD head ∈ head :: (before ++ first :: after) := by
      rw [← List.cons_append]
      exact List.mem_append_left _ List.getLastD_mem_cons
    rintro rfl
    exact notLater inLater

end Linked

/-! ### Links back -/

/-- Every node of the chain points back to the one before it, the first one to `node`. -/
def LinkedBack (previous : α → Option α) : α → List α → Prop
  | _, [] => True
  | node, first :: rest => previous first = some node ∧ LinkedBack previous first rest

namespace LinkedBack

variable {previous changed : α → Option α} {node : α} {chain before after : List α}

theorem congr (agree : ∀ member ∈ chain, changed member = previous member)
    (linked : LinkedBack previous node chain) : LinkedBack changed node chain := by
  induction chain generalizing node with
  | nil => trivial
  | cons first rest ih =>
    refine ⟨(agree first List.mem_cons_self).trans linked.1, ih (fun member isMember => ?_) linked.2⟩
    exact agree member (List.mem_cons_of_mem _ isMember)

theorem append_iff : LinkedBack previous node (before ++ after) ↔
    LinkedBack previous node before ∧ LinkedBack previous (before.getLastD node) after := by
  induction before generalizing node with
  | nil => exact (and_iff_right trivial).symm
  | cons first before ih =>
    rw [List.getLastD_cons]
    change (_ ∧ LinkedBack previous first (before ++ after)) ↔ (_ ∧ _) ∧ _
    rw [ih, and_assoc]

/-- A new member between two parts of the chain. -/
theorem insert {fresh : α} (linked : LinkedBack previous node (before ++ after))
    (older : ∀ member ∈ before, changed member = previous member)
    (isFresh : changed fresh = some (before.getLastD node))
    (isNext : ∀ next, after.head? = some next → changed next = some fresh)
    (later : ∀ member ∈ after.tail, changed member = previous member) :
    LinkedBack changed node (before ++ fresh :: after) := by
  obtain ⟨lower, upper⟩ := append_iff.mp linked
  apply append_iff.mpr
  refine ⟨lower.congr older, isFresh, ?_⟩
  cases after with
  | nil => trivial
  | cons next after => exact ⟨isNext next rfl, upper.2.congr later⟩

/-- A member left out. -/
theorem unlink {first : α} (linked : LinkedBack previous node (before ++ first :: after))
    (older : ∀ member ∈ before, changed member = previous member)
    (isNext : ∀ next, after.head? = some next → changed next = previous first)
    (later : ∀ member ∈ after.tail, changed member = previous member) :
    LinkedBack changed node (before ++ after) := by
  obtain ⟨lower, isFirst, upper⟩ := append_iff.mp linked
  apply append_iff.mpr
  refine ⟨lower.congr older, ?_⟩
  cases after with
  | nil => trivial
  | cons next after => exact ⟨(isNext next rfl).trans isFirst, upper.2.congr later⟩

end LinkedBack

/-! ### Walking a chain -/

/-- Step forward while the next node passes, at most `fuel` times. -/
def walk (next : α → Option α) (passes : α → Bool) : Nat → α → α
  | 0, node => node
  | fuel + 1, node =>
      match next node with
      | some ahead => if passes ahead then walk next passes fuel ahead else node
      | none => node

/-- With enough fuel the walk ends at the last node of the passing prefix. -/
theorem walk_eq {node : α} {rest : List α} {fuel : Nat} (linked : Linked next node rest)
    (enough : rest.length ≤ fuel) :
    walk next passes fuel node = (rest.takeWhile passes).getLastD node := by
  induction rest generalizing node fuel with
  | nil =>
    cases fuel with
    | zero => rfl
    | succ fuel =>
      have stop : next node = none := linked
      simp [walk, stop]
  | cons first rest ih =>
    cases fuel with
    | zero => simp at enough
    | succ fuel =>
      have ahead : next node = some first := linked.1
      by_cases pass : passes first = true
      · simp only [walk, ahead, if_pos pass, List.takeWhile_cons_of_pos pass, List.getLastD_cons]
        exact ih linked.2 (by simpa using enough)
      · simp [walk, ahead, pass]

theorem getLastD_append_cons (start node : α) (before after : List α) :
    (before ++ node :: after).getLastD start = after.getLastD node := by
  induction before generalizing start with
  | nil => exact List.getLastD_cons
  | cons head before ih =>
    rw [List.cons_append, List.getLastD_cons]
    exact ih head

/-- On a chain whose passing nodes come first, a walk from any passing member ends
where the walk from the start ends. -/
theorem walk_from_member {start node : α} {chain : List α} {fuel : Nat}
    (linked : Linked next start chain) (enough : chain.length ≤ fuel)
    (initialPass : chain.Pairwise fun earlier later => passes later = true → passes earlier = true)
    (isMember : node = start ∨ node ∈ chain ∧ passes node = true) :
    walk next passes fuel node = (chain.takeWhile passes).getLastD start := by
  rcases isMember with rfl | ⟨inChain, pass⟩
  · exact walk_eq linked enough
  · obtain ⟨before, after, rfl⟩ := List.append_of_mem inChain
    have beforePass : ∀ member ∈ before, passes member = true := fun member inBefore =>
      (List.pairwise_append.mp initialPass).2.2 member inBefore node (by simp) pass
    rw [walk_eq linked.suffix (by simp at enough; omega), List.takeWhile_append_of_pos beforePass,
      List.takeWhile_cons_of_pos pass]
    exact (getLastD_append_cons start node before _).symm

/-- The nodes ahead, at most `fuel` of them. -/
def follow (next : α → Option α) : Nat → α → List α
  | 0, _ => []
  | fuel + 1, node =>
      match next node with
      | some ahead => ahead :: follow next fuel ahead
      | none => []

/-- With enough fuel, following collects the chain. -/
theorem follow_eq {node : α} {rest : List α} {fuel : Nat} (linked : Linked next node rest)
    (enough : rest.length ≤ fuel) : follow next fuel node = rest := by
  induction rest generalizing node fuel with
  | nil =>
    cases fuel with
    | zero => rfl
    | succ fuel =>
      have stop : next node = none := linked
      simp [follow, stop]
  | cons first rest ih =>
    cases fuel with
    | zero => simp at enough
    | succ fuel =>
      have ahead : next node = some first := linked.1
      simp only [follow, ahead]
      rw [ih linked.2 (by simpa using enough)]

end DiStore.Library
