import Mathlib.Data.List.Nodup
import Mathlib.Data.List.TakeWhile
import Mathlib.Order.Lattice

/-!
Contract: routing a key over a chain sorted by its members' keys.

Owns: the member responsible for a key (the first one with that key, else the last
one below it, else the start), and what it is when keys repeat and when they do
not.

Does not own: how a data structure finds it.
-/

set_option autoImplicit false

namespace DiStore.Library

variable {α κ : Type} [LinearOrder κ]

section Definition

variable (key : α → κ) (start : α)

/-- Last member below `target`, or `start`. -/
def lastBelow (chain : List α) (target : κ) : α :=
  (chain.takeWhile fun node => key node < target).getLastD start

/-- The member responsible for `target`. -/
def route (chain : List α) (target : κ) : α :=
  match chain.dropWhile fun node => key node < target with
  | [] => lastBelow key start chain target
  | node :: _ => if key node = target then node else lastBelow key start chain target

end Definition

variable {key : α → κ} {start node : α} {chain before after : List α} {target : κ}

/-- Keys never decrease along the chain. -/
abbrev SortedBy (key : α → κ) (chain : List α) : Prop :=
  chain.Pairwise fun earlier later => key earlier ≤ key later

theorem lastBelow_spec (start : α) (target : κ) (sorted : SortedBy key chain) :
    (lastBelow key start chain target = start ∧ ∀ node ∈ chain, ¬ key node < target) ∨
      (lastBelow key start chain target ∈ chain ∧
        key (lastBelow key start chain target) < target ∧
        ∀ node ∈ chain, key node < target → key node ≤ key (lastBelow key start chain target)) := by
  induction chain generalizing start with
  | nil => exact .inl ⟨rfl, by simp⟩
  | cons first rest ih =>
    obtain ⟨firstLe, restSorted⟩ := List.pairwise_cons.mp sorted
    by_cases below : key first < target
    · have step : lastBelow key start (first :: rest) target = lastBelow key first rest target := by
        rw [lastBelow, List.takeWhile_cons_of_pos (by simpa using below), List.getLastD_cons]
        rfl
      rw [step]
      refine .inr ?_
      rcases ih first restSorted with ⟨isFirst, none⟩ | ⟨inRest, lastLt, largest⟩
      · rw [isFirst]
        refine ⟨by simp, below, fun node isMember lt => ?_⟩
        rcases List.mem_cons.mp isMember with rfl | inRest
        · exact le_rfl
        · exact absurd lt (none node inRest)
      · refine ⟨List.mem_cons_of_mem _ inRest, lastLt, fun node isMember lt => ?_⟩
        rcases List.mem_cons.mp isMember with rfl | inRest'
        · exact firstLe _ inRest
        · exact largest node inRest' lt
    · refine .inl ⟨by simp [lastBelow, below], fun node isMember => ?_⟩
      rcases List.mem_cons.mp isMember with rfl | inRest
      · exact below
      · exact not_lt.mpr ((not_lt.mp below).trans (firstLe node inRest))

/-- The routed member has the largest key that is not above the target. -/
theorem route_spec (start : α) (target : κ) (sorted : SortedBy key chain) :
    (route key start chain target = start ∧ ∀ node ∈ chain, target < key node) ∨
      (route key start chain target ∈ chain ∧ key (route key start chain target) ≤ target ∧
        ∀ node ∈ chain, key node ≤ target → key node ≤ key (route key start chain target)) := by
  have split := List.takeWhile_append_dropWhile (p := fun node => decide (key node < target))
    (l := chain)
  have lowBelow : ∀ node ∈ chain.takeWhile fun node => key node < target, key node < target :=
    fun node isMember => by simpa using List.mem_takeWhile_imp isMember
  unfold route
  cases tail : chain.dropWhile fun node => key node < target with
  | nil =>
    rw [tail, List.append_nil] at split
    have allBelow : ∀ node ∈ chain, key node < target := fun node isMember =>
      lowBelow node (by rwa [split])
    rcases lastBelow_spec start target sorted with ⟨isStart, none⟩ | ⟨inChain, lastLt, largest⟩
    · exact .inl ⟨isStart, fun node isMember => absurd (allBelow node isMember) (none node isMember)⟩
    · exact .inr ⟨inChain, lastLt.le, fun node isMember _ => largest node isMember (allBelow node isMember)⟩
  | cons next rest =>
    have nextIn : next ∈ chain := by
      rw [← split, tail]
      simp
    have nextNotBelow : ¬ key next < target := by
      have notPass := List.head_dropWhile_not (p := fun node => decide (key node < target))
        (l := chain) (by rw [tail]; simp)
      simpa [tail] using notPass
    have tailAbove : ∀ node ∈ next :: rest, key next ≤ key node := by
      have tailSorted : SortedBy key (next :: rest) := by
        rw [← tail]
        exact sorted.sublist (List.dropWhile_sublist _)
      intro node isMember
      rcases List.mem_cons.mp isMember with rfl | inRest
      · exact le_rfl
      · exact List.rel_of_pairwise_cons tailSorted inRest
    have lowOrTail : ∀ node ∈ chain, key node < target ∨ key next ≤ key node := by
      intro node isMember
      rw [← split, tail] at isMember
      rcases List.mem_append.mp isMember with low | high
      · exact .inl (lowBelow node low)
      · exact .inr (tailAbove node high)
    by_cases exact' : key next = target
    · simp only [if_pos exact']
      exact .inr ⟨nextIn, exact'.le, fun node _ le => exact' ▸ le⟩
    · simp only [if_neg exact']
      have above : target < key next := lt_of_le_of_ne (not_lt.mp nextNotBelow) (Ne.symm exact')
      rcases lastBelow_spec start target sorted with ⟨isStart, none⟩ | ⟨inChain, lastLt, largest⟩
      · refine .inl ⟨isStart, fun node isMember => ?_⟩
        rcases lowOrTail node isMember with low | high
        · exact absurd low (none node isMember)
        · exact above.trans_le high
      · refine .inr ⟨inChain, lastLt.le, fun node isMember le => ?_⟩
        rcases lowOrTail node isMember with low | high
        · exact largest node isMember low
        · exact absurd le (not_le.mpr (above.trans_le high))

theorem route_mem (sorted : SortedBy key chain) : route key start chain target ∈ start :: chain := by
  rcases route_spec start target sorted with ⟨isStart, _⟩ | ⟨inChain, _⟩
  · rw [isStart]
    exact List.mem_cons_self
  · exact List.mem_cons_of_mem _ inChain

/-- Keys strictly increase along the chain. -/
abbrev StrictlySortedBy (key : α → κ) (chain : List α) : Prop :=
  chain.Pairwise fun earlier later => key earlier < key later

theorem StrictlySortedBy.sorted (strict : StrictlySortedBy key chain) : SortedBy key chain :=
  strict.imp le_of_lt

theorem StrictlySortedBy.eq_of_key_eq (strict : StrictlySortedBy key chain) {left right : α}
    (leftIn : left ∈ chain) (rightIn : right ∈ chain) (same : key left = key right) : left = right := by
  have keysNodup : (chain.map key).Nodup := List.pairwise_map.mpr (strict.imp fun lt => lt.ne)
  exact List.inj_on_of_nodup_map keysNodup leftIn rightIn same

/-- A strictly sorted chain is determined by its members. -/
theorem StrictlySortedBy.ext {left right : List α} (leftStrict : StrictlySortedBy key left)
    (rightStrict : StrictlySortedBy key right) (same : ∀ node, node ∈ left ↔ node ∈ right) :
    left = right := by
  have perm : left.Perm right := by
    rw [List.perm_ext_iff_of_nodup (leftStrict.imp fun lt eq => lt.ne (congrArg key eq))
      (rightStrict.imp fun lt eq => lt.ne (congrArg key eq))]
    exact same
  apply perm.eq_of_pairwise _ leftStrict rightStrict
  intro first second _ _ below above
  exact absurd below above.asymm

/-- Some of the members of a strictly sorted chain, strictly sorted, are a sublist. -/
theorem StrictlySortedBy.sublist_of_subset {left right : List α} (leftStrict : StrictlySortedBy key left)
    (rightStrict : StrictlySortedBy key right) (within : left ⊆ right) : left.Sublist right := by
  classical
  have filtered : left = right.filter fun node => node ∈ left := by
    apply leftStrict.ext (rightStrict.sublist List.filter_sublist)
    intro node
    rw [List.mem_filter, decide_eq_true_eq]
    exact ⟨fun isMember => ⟨within isMember, isMember⟩, And.right⟩
  rw [filtered]
  exact List.filter_sublist

/-- Without repeated keys the specification determines the routed member. -/
theorem route_eq_iff (strict : StrictlySortedBy key chain) (isMember : node ∈ chain)
    (notStart : start ∉ chain) :
    route key start chain target = node ↔
      key node ≤ target ∧ ∀ other ∈ chain, key other ≤ target → key other ≤ key node := by
  rcases route_spec start target strict.sorted with
    ⟨isStart, above⟩ | ⟨inChain, routeLe, largest⟩
  · rw [isStart]
    constructor
    · rintro rfl
      exact absurd isMember notStart
    · rintro ⟨le, _⟩
      exact absurd le (not_le.mpr (above node isMember))
  · constructor
    · rintro rfl
      exact ⟨routeLe, largest⟩
    · rintro ⟨le, nodeLargest⟩
      exact strict.eq_of_key_eq inChain isMember
        (le_antisymm (nodeLargest _ inChain routeLe) (largest node isMember le))

/-- A member right behind another one, below all that follow. -/
theorem StrictlySortedBy.insert {front back : List α} {left : α}
    (strict : StrictlySortedBy key (front ++ left :: back)) (above : key left < key node)
    (below : ∀ other ∈ back, key node < key other) :
    StrictlySortedBy key (front ++ left :: node :: back) := by
  rw [StrictlySortedBy, List.pairwise_append, List.pairwise_cons] at strict
  obtain ⟨frontSorted, ⟨leftBelow, backSorted⟩, frontBelow⟩ := strict
  rw [StrictlySortedBy, List.pairwise_append, List.pairwise_cons, List.pairwise_cons]
  refine ⟨frontSorted, ⟨?_, below, backSorted⟩, ?_⟩
  · intro other isMember
    rcases List.mem_cons.mp isMember with isNode | inBack
    · rw [isNode]
      exact above
    · exact leftBelow other inBack
  · intro first inFront other isMember
    have lower := frontBelow first inFront left List.mem_cons_self
    rcases List.mem_cons.mp isMember with isLeft | inTail
    · rw [isLeft]
      exact lower
    · rcases List.mem_cons.mp inTail with isNode | inBack
      · rw [isNode]
        exact lower.trans above
      · exact frontBelow first inFront other (List.mem_cons_of_mem _ inBack)

/-- Two neighbours, where the target is not below the first and below everything behind
the second. -/
theorem route_neighbours {front back : List α} {left right : α}
    (strict : StrictlySortedBy key (front ++ left :: right :: back))
    (notStart : start ∉ front ++ left :: right :: back) (atLeast : key left ≤ target)
    (below : ∀ other ∈ back, target < key other) :
    route key start (front ++ left :: right :: back) target = if target < key right then left else right := by
  have inChain : left ∈ front ++ left :: right :: back ∧ right ∈ front ++ left :: right :: back := by
    simp
  have sorted := strict
  rw [StrictlySortedBy, List.pairwise_append, List.pairwise_cons] at sorted
  obtain ⟨_, ⟨leftBelow, _⟩, frontBelow⟩ := sorted
  have apart : key left < key right := leftBelow right List.mem_cons_self
  have frontLow : ∀ other ∈ front, key other < key left := fun other inFront =>
    frontBelow other inFront left List.mem_cons_self
  by_cases isBelow : target < key right
  · rw [if_pos isBelow, route_eq_iff strict inChain.1 notStart]
    refine ⟨atLeast, fun other isMember notAbove => ?_⟩
    rcases List.mem_append.mp isMember with inFront | inRest
    · exact (frontLow other inFront).le
    · rcases List.mem_cons.mp inRest with isLeft | inTail
      · rw [isLeft]
      · rcases List.mem_cons.mp inTail with isRight | inBack
        · rw [isRight] at notAbove
          exact absurd isBelow (not_lt.mpr notAbove)
        · exact absurd (below other inBack) (not_lt.mpr notAbove)
  · rw [if_neg isBelow, route_eq_iff strict inChain.2 notStart]
    refine ⟨not_lt.mp isBelow, fun other isMember notAbove => ?_⟩
    rcases List.mem_append.mp isMember with inFront | inRest
    · exact ((frontLow other inFront).trans apart).le
    · rcases List.mem_cons.mp inRest with isLeft | inTail
      · rw [isLeft]
        exact apart.le
      · rcases List.mem_cons.mp inTail with isRight | inBack
        · rw [isRight]
        · exact absurd (below other inBack) (not_lt.mpr notAbove)

/-- Two members with different keys. -/
theorem route_pair {first second : α} (differ : key first < key second) :
    route key start [first, second] target =
      if target < key first then start else if target < key second then first else second := by
  by_cases belowFirst : target < key first
  · have notFirst : ¬ key first < target := not_lt.mpr belowFirst.le
    simp [route, lastBelow, notFirst, belowFirst, belowFirst.ne']
  · by_cases belowSecond : target < key second
    · have notSecond : ¬ key second < target := not_lt.mpr belowSecond.le
      rcases eq_or_lt_of_le (not_lt.mp belowFirst) with same | above
      · simp [route, same, belowSecond]
      · simp [route, lastBelow, above, notSecond, belowFirst, belowSecond, belowSecond.ne']
    · have aboveFirst : key first < target := differ.trans_le (not_lt.mp belowSecond)
      rcases eq_or_lt_of_le (not_lt.mp belowSecond) with same | above
      · simp [route, aboveFirst, belowFirst, same]
      · simp [route, lastBelow, aboveFirst, above, belowFirst, belowSecond]

/-- Two members with one key: the first has the key itself, the second the rest. -/
theorem route_twins {first second : α} (same : key first = key second) :
    route key start [first, second] target =
      if target < key first then start else if target = key first then first else second := by
  rcases lt_trichotomy target (key first) with below | equal | above
  · simp [route, lastBelow, below, not_lt.mpr below.le, below.ne']
  · simp [route, equal]
  · have aboveSecond : key second < target := same ▸ above
    simp [route, lastBelow, above, aboveSecond, not_lt.mpr above.le, above.ne']

/-! ### Routing as a plain scan -/

/-- On a sorted chain the members below a key come first. -/
theorem takeWhile_below (sorted : SortedBy key chain) :
    (chain.takeWhile fun node => key node < target) = chain.filter fun node => key node < target := by
  induction chain with
  | nil => rfl
  | cons first rest ih =>
    obtain ⟨firstLe, restSorted⟩ := List.pairwise_cons.mp sorted
    by_cases below : key first < target
    · rw [List.takeWhile_cons_of_pos (by simpa using below), List.filter_cons_of_pos (by simpa using below),
        ih restSorted]
    · rw [List.takeWhile_cons_of_neg (by simpa using below), List.filter_cons_of_neg (by simpa using below)]
      symm
      rw [List.filter_eq_nil_iff]
      intro node isMember
      have above := (not_lt.mp below).trans (firstLe node isMember)
      simpa using above

/-- On a sorted chain the members that are not below a key come last. -/
theorem dropWhile_below (sorted : SortedBy key chain) :
    (chain.dropWhile fun node => key node < target) = chain.filter fun node => target ≤ key node := by
  induction chain with
  | nil => rfl
  | cons first rest ih =>
    obtain ⟨firstLe, restSorted⟩ := List.pairwise_cons.mp sorted
    by_cases below : key first < target
    · rw [List.dropWhile_cons_of_pos (by simpa using below), List.filter_cons_of_neg (by simpa using below),
        ih restSorted]
    · rw [List.dropWhile_cons_of_neg (by simpa using below)]
      symm
      rw [List.filter_eq_self]
      intro node isMember
      have firstAbove := not_lt.mp below
      rcases List.mem_cons.mp isMember with rfl | inRest
      · simpa using firstAbove
      · simpa using firstAbove.trans (firstLe node inRest)

/-- The first member with a key is the first that is not below it. -/
theorem find_key (sorted : SortedBy key chain) :
    (chain.find? fun node => key node = target) =
      (chain.dropWhile fun node => key node < target).head?.filter fun node => key node = target := by
  have searched : (chain.find? fun node => key node = target) =
      (chain.dropWhile fun node => key node < target).find? fun node => key node = target := by
    rw [dropWhile_below sorted, List.find?_filter]
    congr 1
    funext node
    by_cases same : key node = target
    · simp [same]
    · simp [same]
  have notBelow : ∀ node ∈ chain.dropWhile fun node => key node < target, target ≤ key node := by
    intro node isMember
    rw [dropWhile_below sorted] at isMember
    simpa using (List.mem_filter.mp isMember).2
  have tailSorted : SortedBy key (chain.dropWhile fun node => key node < target) :=
    sorted.sublist (List.dropWhile_sublist _)
  rw [searched]
  cases tail : chain.dropWhile fun node => key node < target with
  | nil => rfl
  | cons first rest =>
    rw [tail] at notBelow tailSorted
    by_cases same : key first = target
    · simp [Option.filter_some, same]
    · have above : target < key first := lt_of_le_of_ne (notBelow first List.mem_cons_self) (Ne.symm same)
      have noneLater : rest.find? (fun node => key node = target) = none := by
        rw [List.find?_eq_none]
        intro node isMember isTarget
        have le := List.rel_of_pairwise_cons tailSorted isMember
        exact absurd (by simpa using isTarget) (above.trans_le le).ne'
      simp [Option.filter_some, same, noneLater]

/-- The routed member is the first with the key, or else the last below it. -/
theorem route_eq_scan (start : α) (target : κ) (sorted : SortedBy key chain) :
    route key start chain target =
      (chain.find? fun node => key node = target).getD
        ((chain.filter fun node => key node < target).getLastD start) := by
  unfold route lastBelow
  rw [find_key sorted, ← takeWhile_below sorted]
  cases chain.dropWhile fun node => key node < target with
  | nil => rfl
  | cons next rest =>
    by_cases same : key next = target
    · simp [Option.filter_some, same]
    · simp [Option.filter_some, same]

/-! ### The first of several hits -/

/-- Where hits come in decreasing order, the first one is the largest. -/
theorem find_largest [LinearOrder α] {hit : α → Bool}
    (newestFirst : chain.Pairwise fun earlier later => hit earlier → hit later → later < earlier) :
    chain.find? hit = some node ↔ node ∈ chain ∧ hit node ∧ ∀ other ∈ chain, hit other → other ≤ node := by
  induction chain with
  | nil => simp
  | cons first rest ih =>
    obtain ⟨firstNewest, restNewest⟩ := List.pairwise_cons.mp newestFirst
    by_cases isHit : hit first = true
    · rw [List.find?_cons_of_pos isHit, Option.some_inj]
      constructor
      · rintro rfl
        refine ⟨List.mem_cons_self, isHit, fun other isMember otherHit => ?_⟩
        rcases List.mem_cons.mp isMember with isFirst | inRest
        · exact isFirst.le
        · exact (firstNewest other inRest isHit otherHit).le
      · rintro ⟨isMember, nodeHit, largest⟩
        rcases List.mem_cons.mp isMember with isFirst | inRest
        · exact isFirst.symm
        · exact absurd (largest first List.mem_cons_self isHit) (firstNewest node inRest isHit nodeHit).not_ge
    · rw [List.find?_cons_of_neg isHit, ih restNewest]
      constructor
      · rintro ⟨isMember, nodeHit, largest⟩
        refine ⟨List.mem_cons_of_mem _ isMember, nodeHit, fun other otherIn otherHit => ?_⟩
        rcases List.mem_cons.mp otherIn with isFirst | inRest
        · exact absurd (isFirst ▸ otherHit) isHit
        · exact largest other inRest otherHit
      · rintro ⟨isMember, nodeHit, largest⟩
        rcases List.mem_cons.mp isMember with isFirst | inRest
        · exact absurd (isFirst ▸ nodeHit) isHit
        · exact ⟨inRest, nodeHit, fun other otherIn => largest other (List.mem_cons_of_mem _ otherIn)⟩

/-- Two such lists with the same members have the same first hit. -/
theorem find_eq_of_perm [LinearOrder α] {other : List α} {hit : α → Bool} (perm : chain.Perm other)
    (newestFirst : chain.Pairwise fun earlier later => hit earlier → hit later → later < earlier)
    (otherFirst : other.Pairwise fun earlier later => hit earlier → hit later → later < earlier) :
    chain.find? hit = other.find? hit := by
  apply Option.ext
  intro node
  rw [find_largest newestFirst, find_largest otherFirst]
  simp only [perm.mem_iff]

end DiStore.Library
