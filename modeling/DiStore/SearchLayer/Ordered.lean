import DiStore.Library.SortedRoute
import DiStore.SearchLayer.SkipList
import Mathlib.Data.List.Perm.Subperm

/-!
Contract: what the skip list keeps over every insertion, and what a search finds.

Owns: the invariant `SkipList.Ordered` (every level is an acyclic chain, sorted by
anchor, over nodes of the level below), its preservation by `insert`,
`async_update` and `calibrate` for any drawn levels, and the agreement of
`fuzzy_search` with routing over the bottom chain.

The levels of equal anchors need not have the same order, so a level is not
required to be a subsequence of the one below, only to have its nodes.
-/

set_option autoImplicit false

namespace DiStore.SearchLayer

open DiStore.DataLayer DiStore.Library

namespace SkipList

variable {slist : SkipList} {levels : Nat → List NodeId} {node other : NodeId} {level : Nat}
variable {anchor : Str}

/-- Anchor of a node, as the key that orders the chains. -/
abbrev anchorOf (slist : SkipList) (node : NodeId) : Str := (slist.nodes node).anchor

/-- `levels i` is the chain that starts at `head->forwards[i]`. -/
structure Ordered (slist : SkipList) (levels : Nat → List NodeId) : Prop where
  linked : ∀ level, Linked (slist.forward level) head (levels level)
  nodup : ∀ level, (head :: levels level).Nodup
  sorted : ∀ level, SortedBy slist.anchorOf (levels level)
  nested : ∀ level, levels (level + 1) ⊆ levels level
  known : ∀ level, ∀ node ∈ head :: levels level, node < slist.count
  low : ∀ level, slist.currentLevel ≤ level → levels level = []
  bottom : 0 < slist.currentLevel
  headAnchor : slist.anchorOf head = []

theorem ordered_empty (fakeHead : RemotePointer) : (empty fakeHead).Ordered fun _ => [] where
  linked _ := rfl
  nodup _ := by simp
  sorted _ := List.Pairwise.nil
  nested _ := List.Subset.refl _
  known _ node isHead := by
    rw [List.mem_singleton.mp isHead]
    exact Nat.one_pos
  low _ _ := rfl
  bottom := Nat.one_pos
  headAnchor := rfl

/-- The invariant reads only the links, the anchors and the two counters. -/
theorem Ordered.congr {next : SkipList} (ordered : slist.Ordered levels)
    (forward : ∀ level, ∀ node ∈ head :: levels level, next.forward level node = slist.forward level node)
    (anchors : ∀ node < slist.count, next.anchorOf node = slist.anchorOf node)
    (count : slist.count ≤ next.count) (currentLevel : next.currentLevel = slist.currentLevel) :
    next.Ordered levels where
  linked level := (ordered.linked level).congr (forward level)
  nodup := ordered.nodup
  sorted level := (ordered.sorted level).imp_of_mem fun leftIn rightIn le => by
    rw [anchors _ (ordered.known level _ (List.mem_cons_of_mem _ leftIn)),
      anchors _ (ordered.known level _ (List.mem_cons_of_mem _ rightIn))]
    exact le
  nested := ordered.nested
  known level node isMember := (ordered.known level node isMember).trans_le count
  low level bound := ordered.low level (currentLevel ▸ bound)
  bottom := currentLevel ▸ ordered.bottom
  headAnchor := (anchors head (ordered.known 0 head (by simp))).trans ordered.headAnchor

/-! ### Searching -/

theorem Ordered.length_le (ordered : slist.Ordered levels) (level : Nat) :
    (levels level).length ≤ slist.count := by
  have within : levels level ⊆ List.range slist.count := fun node isMember =>
    List.mem_range.mpr (ordered.known level node (List.mem_cons_of_mem _ isMember))
  simpa using (List.Nodup.subperm (List.nodup_cons.mp (ordered.nodup level)).2 within).length_le

/-- Where the walk on one level ends, from any member it can have been left at. -/
theorem Ordered.advance_eq (ordered : slist.Ordered levels) {walker : NodeId}
    (isMember : walker = head ∨ walker ∈ levels level ∧ slist.anchorOf walker < anchor) :
    slist.advance anchor level walker = lastBelow slist.anchorOf head (levels level) anchor := by
  unfold advance lastBelow
  refine walk_from_member (ordered.linked level) (ordered.length_le level) ?_ ?_
  · exact (ordered.sorted level).imp fun le later => by
      simp only [decide_eq_true_eq] at later ⊢
      exact lt_of_le_of_lt le later
  · simpa using isMember

theorem Ordered.lastBelow_member (ordered : slist.Ordered levels) (level : Nat) (anchor : Str) :
    lastBelow slist.anchorOf head (levels level) anchor = head ∨
      lastBelow slist.anchorOf head (levels level) anchor ∈ levels level ∧
        slist.anchorOf (lastBelow slist.anchorOf head (levels level) anchor) < anchor := by
  rcases lastBelow_spec head anchor (ordered.sorted level) with
    ⟨isHead, _⟩ | ⟨inLevel, below, _⟩
  · exact .inl isHead
  · exact .inr ⟨inLevel, below⟩

/-- The descent records the last node below the anchor on every level it visits. -/
theorem Ordered.descend_eq (ordered : slist.Ordered levels) (anchor : Str) (bottom top : Nat) (walker : NodeId)
    (update : Nat → NodeId)
    (isMember : walker = head ∨ walker ∈ levels top ∧ slist.anchorOf walker < anchor) :
    slist.descend anchor bottom top walker update =
      (if bottom < top then lastBelow slist.anchorOf head (levels bottom) anchor else walker,
        fun level =>
          if bottom ≤ level ∧ level < top then lastBelow slist.anchorOf head (levels level) anchor
          else update level) := by
  induction top generalizing walker update with
  | zero => simp [descend]
  | succ top ih =>
    by_cases stop : top < bottom
    · have notBelow : ¬ bottom < top + 1 := by omega
      have outside : ∀ level, ¬ (bottom ≤ level ∧ level < top + 1) := by omega
      simp only [descend, if_pos stop, if_neg notBelow, if_neg (outside _)]
    · have inLower : walker = head ∨ walker ∈ levels top ∧ slist.anchorOf walker < anchor :=
        isMember.imp_right fun member => ⟨ordered.nested top member.1, member.2⟩
      have reached := ordered.advance_eq inLower
      simp only [descend, if_neg stop, reached]
      rw [ih _ _ (ordered.lastBelow_member top anchor)]
      refine Prod.ext ?_ ?_
      · by_cases atBottom : bottom = top
        · simp [atBottom]
        · simp [show bottom < top by omega, show bottom < top + 1 by omega]
      · funext level
        by_cases isTop : level = top
        · subst isTop
          simp [show bottom ≤ level by omega]
        · have same : bottom ≤ level ∧ level < top ↔ bottom ≤ level ∧ level < top + 1 := by omega
          simp [isTop, same]

/-- `update[]` holds the last node below the anchor, on every level. -/
theorem Ordered.predecessors_eq (ordered : slist.Ordered levels) {bottom : Nat} (inRange : bottom ≤ level) :
    slist.predecessors anchor bottom level = lastBelow slist.anchorOf head (levels level) anchor := by
  rw [predecessors, ordered.descend_eq _ _ _ _ _ (.inl rfl)]
  by_cases visited : level < slist.currentLevel
  · simp [inRange, visited]
  · simp [visited, ordered.low level (not_lt.mp visited), lastBelow]

/-- `fuzzy_search` routes over the bottom chain; it never returns `nullptr`. -/
theorem Ordered.fuzzySearch_eq (ordered : slist.Ordered levels) (member : Str) :
    slist.fuzzySearch member = some (route slist.anchorOf head (levels 0) member) := by
  have reached := ordered.descend_eq member 0 slist.currentLevel head (fun _ => head)
    (.inl rfl)
  rw [if_pos ordered.bottom] at reached
  have walkerLow : ¬ member < slist.anchorOf (lastBelow slist.anchorOf head (levels 0) member) := by
    rcases ordered.lastBelow_member 0 member with isHead | ⟨_, below⟩
    · rw [isHead, ordered.headAnchor]
      exact List.not_lt_nil _
    · exact not_lt.mpr below.le
  have chainSplit := List.takeWhile_append_dropWhile
    (p := fun node => decide (slist.anchorOf node < member)) (l := levels 0)
  have walkerNext : slist.forward 0 (lastBelow slist.anchorOf head (levels 0) member) =
      ((levels 0).dropWhile fun node => decide (slist.anchorOf node < member)).head? := by
    have linked := ordered.linked 0
    rw [← chainSplit] at linked
    unfold lastBelow
    exact linked.next_of_append
  have notLow : ∀ next, ((levels 0).dropWhile fun node => decide (slist.anchorOf node < member)).head?
      = some next → ¬ slist.anchorOf next < member := by
    intro next isNext
    have notPass := List.head?_dropWhile_not (fun node => decide (slist.anchorOf node < member)) (levels 0)
    rw [isNext] at notPass
    simpa using notPass
  unfold fuzzySearch route
  simp only [reached, walkerNext]
  cases tail : (levels 0).dropWhile fun node => decide (slist.anchorOf node < member) with
  | nil => simp
  | cons next rest =>
    have notBelow := notLow next (by rw [tail]; rfl)
    simp only [List.head?_cons]
    by_cases exact' : (slist.nodes next).anchor = member
    · rw [if_pos exact', if_pos exact']
    · have above : member < (slist.nodes next).anchor :=
        lt_of_le_of_ne (not_lt.mp notBelow) (Ne.symm exact')
      rw [if_neg exact', if_neg exact', if_pos ⟨above, walkerLow⟩]

/-! ### Linking -/

/-- Everything but the links and `current_level`. -/
structure SameNodes (left right : SkipList) : Prop where
  count : left.count = right.count
  anchor : ∀ node, (left.nodes node).anchor = (right.nodes node).anchor
  dataNode : ∀ node, (left.nodes node).dataNode = (right.nodes node).dataNode
  type : ∀ node, (left.nodes node).type = (right.nodes node).type
  ctx : ∀ node, (left.nodes node).ctx = (right.nodes node).ctx
  backward : ∀ node, (left.nodes node).backward = (right.nodes node).backward

theorem SameNodes.refl (slist : SkipList) : SameNodes slist slist :=
  ⟨rfl, fun _ => rfl, fun _ => rfl, fun _ => rfl, fun _ => rfl, fun _ => rfl⟩

theorem SameNodes.trans {first second third : SkipList} (left : SameNodes first second)
    (right : SameNodes second third) : SameNodes first third where
  count := left.count.trans right.count
  anchor node := (left.anchor node).trans (right.anchor node)
  dataNode node := (left.dataNode node).trans (right.dataNode node)
  type node := (left.type node).trans (right.type node)
  ctx node := (left.ctx node).trans (right.ctx node)
  backward node := (left.backward node).trans (right.backward node)

theorem forward_setForward (slist : SkipList) (level : Nat) (node : NodeId) (target : Option NodeId)
    (probe : Nat) :
    (slist.setForward level node target).forward probe =
      if probe = level then Function.update (slist.forward level) node target
      else slist.forward probe := by
  funext other
  by_cases same : other = node <;> by_cases here : probe = level <;>
    simp [forward, setForward, setNode, same, here]

theorem sameNodes_setForward (slist : SkipList) (level : Nat) (node : NodeId)
    (target : Option NodeId) : SameNodes (slist.setForward level node target) slist := by
  constructor
  case count => rfl
  all_goals
    intro other
    by_cases same : other = node <;> simp [setForward, setNode, same]

theorem forward_linkLevel (update : Nat → NodeId) (node : NodeId) (slist : SkipList)
    (level probe : Nat) :
    (linkLevel update node slist level).forward probe =
      if probe = level then Linked.splice (slist.forward level) (update level) node
      else slist.forward probe := by
  unfold linkLevel Linked.splice
  rw [forward_setForward]
  by_cases here : probe = level
  · simp [here, forward_setForward]
  · simp [here, forward_setForward]

theorem sameNodes_linkLevel (update : Nat → NodeId) (node : NodeId) (slist : SkipList) (level : Nat) :
    SameNodes (linkLevel update node slist level) slist :=
  (sameNodes_setForward _ _ _ _).trans (sameNodes_setForward _ _ _ _)

/-- The linking loop touches each of its levels once, and nothing else. -/
theorem linkLevels_spec (update : Nat → NodeId) (node : NodeId) (slist : SkipList) {places : List Nat}
    (nodup : places.Nodup) :
    SameNodes (places.foldl (linkLevel update node) slist) slist ∧
      (places.foldl (linkLevel update node) slist).currentLevel = slist.currentLevel ∧
      ∀ level, (places.foldl (linkLevel update node) slist).forward level =
        if level ∈ places then Linked.splice (slist.forward level) (update level) node
        else slist.forward level := by
  induction places generalizing slist with
  | nil => exact ⟨.refl _, rfl, fun _ => by simp⟩
  | cons first places ih =>
    obtain ⟨notLater, laterNodup⟩ := List.nodup_cons.mp nodup
    obtain ⟨same, current, forwards⟩ := ih (linkLevel update node slist first) laterNodup
    refine ⟨same.trans (sameNodes_linkLevel _ _ _ _), current, fun level => ?_⟩
    rw [List.foldl_cons, forwards, forward_linkLevel]
    by_cases isFirst : level = first
    · simp [isFirst, notLater]
    · simp [isFirst]

/-- Levels after a node is inserted where `before` and `after` meet. -/
def insertedLevels (levels before after : Nat → List NodeId) (places : List Nat) (node : NodeId) :
    Nat → List NodeId :=
  fun level => if level ∈ places then before level ++ node :: after level else levels level

/-- Linking an unlinked node between `before` and `after` on each of `places`. -/
theorem Ordered.linkLevels (ordered : slist.Ordered levels) (node : NodeId)
    (before after : Nat → List NodeId) (update : Nat → NodeId) (height : Nat) {places : List Nat}
    (nodup : places.Nodup)
    (splits : ∀ level ∈ places, levels level = before level ++ after level)
    (updates : ∀ level ∈ places, (before level).getLastD head = update level)
    (low : ∀ level ∈ places, ∀ other ∈ before level, slist.anchorOf other ≤ slist.anchorOf node)
    (high : ∀ level ∈ places, ∀ other ∈ after level, slist.anchorOf node ≤ slist.anchorOf other)
    (isKnown : node < slist.count) (unlinked : ∀ level ∈ places, node ∉ head :: levels level)
    (supported : ∀ level, level + 1 ∈ places → level ∈ places ∨ node ∈ levels level)
    (bounded : ∀ level ∈ places, level < height) :
    (places.foldl (linkLevel update node)
      { slist with currentLevel := max slist.currentLevel height }).Ordered
        (insertedLevels levels before after places node) := by
  obtain ⟨same, current, forwards⟩ :=
    linkLevels_spec update node { slist with currentLevel := max slist.currentLevel height } nodup
  have anchors : (places.foldl (linkLevel update node)
      { slist with currentLevel := max slist.currentLevel height }).anchorOf = slist.anchorOf :=
    funext same.anchor
  constructor
  case linked =>
    intro level
    rw [forwards]
    by_cases here : level ∈ places
    · have linked := ordered.linked level
      have levelNodup := ordered.nodup level
      have fresh := unlinked level here
      rw [splits level here] at linked levelNodup fresh
      simp only [insertedLevels, if_pos here]
      exact linked.insert levelNodup fresh (updates level here)
    · simp only [insertedLevels, if_neg here]
      exact ordered.linked level
  case nodup =>
    intro level
    by_cases here : level ∈ places
    · have levelNodup := ordered.nodup level
      have fresh := unlinked level here
      rw [splits level here] at levelNodup fresh
      simp only [insertedLevels, if_pos here]
      have permuted : (head :: (before level ++ node :: after level)).Perm
          (node :: head :: (before level ++ after level)) :=
        (List.Perm.cons _ List.perm_middle).trans (List.Perm.swap _ _ _)
      exact permuted.nodup_iff.mpr (List.nodup_cons.mpr ⟨fresh, levelNodup⟩)
    · simp only [insertedLevels, if_neg here]
      exact ordered.nodup level
  case sorted =>
    intro level
    rw [anchors]
    by_cases here : level ∈ places
    · have sorted := ordered.sorted level
      rw [splits level here, SortedBy, List.pairwise_append] at sorted
      simp only [insertedLevels, if_pos here, SortedBy, List.pairwise_append, List.pairwise_cons]
      refine ⟨sorted.1, ⟨high level here, sorted.2.1⟩, fun left leftIn right rightIn => ?_⟩
      rcases List.mem_cons.mp rightIn with rfl | rightIn
      · exact low level here left leftIn
      · exact sorted.2.2 left leftIn right rightIn
    · simp only [insertedLevels, if_neg here]
      exact ordered.sorted level
  case nested =>
    intro level other isMember
    have old : other ∈ levels (level + 1) → other ∈ insertedLevels levels before after places node level := by
      intro inUpper
      have inLevel := ordered.nested level inUpper
      by_cases here : level ∈ places
      · rw [splits level here] at inLevel
        simp only [insertedLevels, if_pos here, List.mem_append, List.mem_cons]
        rcases List.mem_append.mp inLevel with inBefore | inAfter
        · exact .inl inBefore
        · exact .inr (.inr inAfter)
      · simpa only [insertedLevels, if_neg here] using inLevel
    by_cases above : level + 1 ∈ places
    · simp only [insertedLevels, if_pos above, List.mem_append, List.mem_cons] at isMember
      rcases isMember with inBefore | rfl | inAfter
      · exact old (by rw [splits _ above]; exact List.mem_append_left _ inBefore)
      · rcases supported level above with here | inLevel
        · simp [insertedLevels, here]
        · have notHere : level ∉ places := fun here =>
            unlinked level here (List.mem_cons_of_mem _ inLevel)
          simpa only [insertedLevels, if_neg notHere] using inLevel
      · exact old (by rw [splits _ above]; exact List.mem_append_right _ inAfter)
    · simp only [insertedLevels, if_neg above] at isMember
      exact old isMember
  case known =>
    intro level other isMember
    rw [same.count]
    by_cases here : level ∈ places
    · simp only [insertedLevels, if_pos here, List.mem_cons, List.mem_append] at isMember
      have known := ordered.known level other
      rw [splits level here] at known
      simp only [List.mem_cons, List.mem_append] at known
      rcases isMember with isHead | inBefore | rfl | inAfter
      · exact known (.inl isHead)
      · exact known (.inr (.inl inBefore))
      · exact isKnown
      · exact known (.inr (.inr inAfter))
    · simp only [insertedLevels, if_neg here] at isMember
      exact ordered.known level other isMember
  case low =>
    intro level bound
    rw [current] at bound
    have notHere : level ∉ places := fun here => by
      have := bounded level here
      simp only at bound
      omega
    simp only [insertedLevels, if_neg notHere]
    exact ordered.low level (le_trans (le_max_left _ _) bound)
  case bottom =>
    rw [current]
    exact lt_of_lt_of_le ordered.bottom (le_max_left _ _)
  case headAnchor =>
    rw [anchors]
    exact ordered.headAnchor

/-! ### The three ways a node gets linked -/

theorem nodes_makeNewNode_of_ne {slist : SkipList} {remote : RemotePointer} {type : LinkedNodeType}
    (differs : other ≠ slist.count) :
    (slist.makeNewNode anchor remote type).2.nodes other = slist.nodes other := by
  simp [makeNewNode, setNode, differs]

@[simp] theorem nodes_makeNewNode_self (slist : SkipList) (anchor : Str) (remote : RemotePointer)
    (type : LinkedNodeType) :
    (slist.makeNewNode anchor remote type).2.nodes slist.count = .makeSkipNode anchor remote type := by
  simp [makeNewNode, setNode]

theorem Ordered.makeNewNode (ordered : slist.Ordered levels) (anchor : Str) (remote : RemotePointer)
    (type : LinkedNodeType) : (slist.makeNewNode anchor remote type).2.Ordered levels := by
  refine ordered.congr ?_ ?_ (Nat.le_succ _) rfl
  · intro level node isMember
    have older := ordered.known level node isMember
    rw [forward, nodes_makeNewNode_of_ne older.ne, forward]
  · intro node older
    rw [anchorOf, nodes_makeNewNode_of_ne older.ne]

theorem Ordered.count_notMem (ordered : slist.Ordered levels) (level : Nat) :
    slist.count ∉ head :: levels level :=
  fun isMember => (ordered.known level _ isMember).ne rfl

/-- The nodes of a chain that lie below an anchor. -/
def below (slist : SkipList) (chain : List NodeId) (anchor : Str) : List NodeId :=
  chain.takeWhile fun node => slist.anchorOf node < anchor

/-- The others. The first of them is where the searches stop. -/
def notBelow (slist : SkipList) (chain : List NodeId) (anchor : Str) : List NodeId :=
  chain.dropWhile fun node => slist.anchorOf node < anchor

theorem below_append_notBelow (slist : SkipList) (chain : List NodeId) (anchor : Str) :
    slist.below chain anchor ++ slist.notBelow chain anchor = chain :=
  List.takeWhile_append_dropWhile

theorem below_subset (slist : SkipList) (chain : List NodeId) (anchor : Str) : slist.below chain anchor ⊆ chain :=
  (List.takeWhile_sublist _).subset

theorem notBelow_subset (slist : SkipList) (chain : List NodeId) (anchor : Str) :
    slist.notBelow chain anchor ⊆ chain :=
  (List.dropWhile_sublist _).subset

theorem anchorOf_below {chain : List NodeId} (isMember : node ∈ slist.below chain anchor) :
    slist.anchorOf node < anchor := by
  simpa using List.mem_takeWhile_imp isMember

theorem Ordered.le_anchorOf_notBelow (ordered : slist.Ordered levels)
    (isMember : node ∈ slist.notBelow (levels level) anchor) : anchor ≤ slist.anchorOf node := by
  have sorted : SortedBy slist.anchorOf (slist.notBelow (levels level) anchor) :=
    (ordered.sorted level).sublist (List.dropWhile_sublist _)
  cases tail : slist.notBelow (levels level) anchor with
  | nil =>
    rw [tail] at isMember
    cases isMember
  | cons first rest =>
    rw [tail] at isMember sorted
    have notPass := List.head?_dropWhile_not
      (fun node => decide (slist.anchorOf node < anchor)) (levels level)
    rw [show (levels level).dropWhile _ = _ from tail] at notPass
    have firstLe : anchor ≤ slist.anchorOf first := by simpa using notPass
    rcases List.mem_cons.mp isMember with rfl | inRest
    · exact firstLe
    · exact firstLe.trans (List.rel_of_pairwise_cons sorted inRest)

theorem sameNodes_setCurrentLevel (slist : SkipList) (current : Nat) :
    SameNodes { slist with currentLevel := current } slist :=
  ⟨rfl, fun _ => rfl, fun _ => rfl, fun _ => rfl, fun _ => rfl, fun _ => rfl⟩

@[simp] theorem forward_setBackward (slist : SkipList) (node : NodeId) (target : Option NodeId)
    (level : Nat) : (slist.setBackward node target).forward level = slist.forward level := by
  funext other
  by_cases same : other = node <;> simp [forward, setBackward, setNode, same]

theorem nodes_setBackward (slist : SkipList) (node : NodeId) (target : Option NodeId) (other : NodeId) :
    (slist.setBackward node target).nodes other =
      { slist.nodes other with
        backward := if other = node then target else (slist.nodes other).backward } := by
  by_cases same : other = node <;> simp [setBackward, setNode, same]

theorem Ordered.setBackward (ordered : slist.Ordered levels) (node : NodeId) (target : Option NodeId) :
    (slist.setBackward node target).Ordered levels :=
  ordered.congr (fun _ _ _ => by rw [forward_setBackward])
    (fun _ _ => by rw [anchorOf, nodes_setBackward]) le_rfl rfl

/-- Linking a node that only the bottom level knows on the first upper levels; the
current level is raised before. -/
theorem Ordered.linkUpper (ordered : slist.Ordered levels) (linked : node ∈ levels 0)
    (unlinked : node ∉ levels 1) (level : Nat) {count : Nat} (within : count ≤ level - 1) :
    ((List.range' 1 count).foldl (linkLevel (slist.predecessors (slist.anchorOf node) 1) node)
        { slist with currentLevel := max slist.currentLevel level }).Ordered
      (insertedLevels levels (fun place => slist.below (levels place) (slist.anchorOf node))
        (fun place => slist.notBelow (levels place) (slist.anchorOf node)) (List.range' 1 count) node) := by
  have absent : ∀ level, node ∉ levels (level + 1) := by
    intro level
    induction level with
    | zero => exact unlinked
    | succ level ih => exact fun isMember => ih (ordered.nested _ isMember)
  have notHead : node ≠ head := by
    rintro rfl
    exact (List.nodup_cons.mp (ordered.nodup 0)).1 linked
  refine ordered.linkLevels node _ _ _ level List.nodup_range'
    (fun place _ => (below_append_notBelow _ _ _).symm) ?_ ?_ ?_
    (ordered.known 0 node (List.mem_cons_of_mem _ linked)) ?_ ?_ ?_
  · intro place isPlace
    exact (ordered.predecessors_eq (List.mem_range'_1.mp isPlace).1).symm
  · exact fun place _ other isMember => (anchorOf_below isMember).le
  · exact fun place _ other isMember => ordered.le_anchorOf_notBelow isMember
  · intro place isPlace isMember
    obtain ⟨place, rfl⟩ := Nat.exists_eq_add_of_le' (List.mem_range'_1.mp isPlace).1
    rcases List.mem_cons.mp isMember with isHead | inLevel
    · exact notHead isHead
    · exact absent place inLevel
  · intro place isPlace
    cases place with
    | zero => exact .inr linked
    | succ place =>
      have range := List.mem_range'_1.mp isPlace
      exact .inl (List.mem_range'_1.mpr (by omega))
  · intro place isPlace
    have range := List.mem_range'_1.mp isPlace
    omega

/-- `calibrate` links a node that only the bottom level knows. -/
theorem Ordered.calibrate (ordered : slist.Ordered levels) (linked : node ∈ levels 0)
    (unlinked : node ∉ levels 1) (level : Nat) :
    (slist.calibrate node level).Ordered
      (insertedLevels levels (fun place => slist.below (levels place) (slist.anchorOf node))
        (fun place => slist.notBelow (levels place) (slist.anchorOf node)) (List.range' 1 (level - 1)) node) :=
  ordered.linkUpper linked unlinked level le_rfl

theorem sameNodes_calibrate (slist : SkipList) (node : NodeId) (level : Nat) :
    SameNodes (slist.calibrate node level) slist :=
  (linkLevels_spec _ _ _ List.nodup_range').1.trans (sameNodes_setCurrentLevel _ _)

/-- What a new node and its neighbours hold, apart from links: `next` is the node
that points back to the new one, `last` the one the new one points back to. -/
structure Created (slist result : SkipList) (anchor : Str) (remote : RemotePointer)
    (type : LinkedNodeType) (last : NodeId) (next : Option NodeId) : Prop where
  count : result.count = slist.count + 1
  old : ∀ node ≠ slist.count,
    (result.nodes node).anchor = (slist.nodes node).anchor ∧
      (result.nodes node).dataNode = (slist.nodes node).dataNode ∧
      (result.nodes node).type = (slist.nodes node).type ∧
      (result.nodes node).ctx = (slist.nodes node).ctx
  anchor : (result.nodes slist.count).anchor = anchor
  dataNode : (result.nodes slist.count).dataNode = remote
  type : (result.nodes slist.count).type = type
  ctx : (result.nodes slist.count).ctx = none
  backward : ∀ node, (result.nodes node).backward =
    if next = some node then some slist.count
    else if node = slist.count then some last
    else (slist.nodes node).backward

theorem insert_eq (slist : SkipList) (anchor : Str) (remote : RemotePointer) (type : LinkedNodeType)
    (level : Nat) :
    ∃ linked, linked = (List.range level).foldl
        (linkLevel (slist.predecessors anchor 0) slist.count)
        { (slist.makeNewNode anchor remote type).2 with
          currentLevel := max slist.currentLevel level } ∧
      slist.insert anchor remote type level =
        match linked.forward 0 slist.count with
        | some next => (linked.setBackward slist.count (some (slist.predecessors anchor 0 0))).setBackward
            next (some slist.count)
        | none => linked.setBackward slist.count (some (slist.predecessors anchor 0 0)) := by
  refine ⟨_, rfl, ?_⟩
  unfold insert
  simp only [forward_setBackward]
  rfl

/-- `insert` puts the new node before the first anchor that is not smaller, on each
of its levels, and repairs both `backward` pointers. -/
theorem Ordered.insert (ordered : slist.Ordered levels) (anchor : Str) (remote : RemotePointer)
    (type : LinkedNodeType) {level : Nat} (positive : 0 < level) :
    (slist.insert anchor remote type level).Ordered
        (insertedLevels levels (fun place => slist.below (levels place) anchor)
          (fun place => slist.notBelow (levels place) anchor) (List.range level) slist.count) ∧
      Created slist (slist.insert anchor remote type level) anchor remote type
        ((slist.below (levels 0) anchor).getLastD head) (slist.notBelow (levels 0) anchor).head? := by
  obtain ⟨linked, isLinked, inserted⟩ := insert_eq slist anchor remote type level
  have older : ∀ place, ∀ other ∈ levels place, other ≠ slist.count := fun place other isMember =>
    (ordered.known place other (List.mem_cons_of_mem _ isMember)).ne
  have sameAnchor : ∀ other ≠ slist.count,
      (slist.makeNewNode anchor remote type).2.anchorOf other = slist.anchorOf other :=
    fun other differs => by rw [anchorOf, nodes_makeNewNode_of_ne differs]
  have newAnchor : (slist.makeNewNode anchor remote type).2.anchorOf slist.count = anchor := by
    rw [anchorOf, nodes_makeNewNode_self]
    rfl
  have linkedOrdered : linked.Ordered (insertedLevels levels (fun place => slist.below (levels place) anchor)
      (fun place => slist.notBelow (levels place) anchor) (List.range level) slist.count) := by
    rw [isLinked]
    refine (ordered.makeNewNode anchor remote type).linkLevels slist.count
      (fun place => slist.below (levels place) anchor)
      (fun place => slist.notBelow (levels place) anchor) _ level List.nodup_range
      (fun place _ => (below_append_notBelow _ _ _).symm) ?_ ?_ ?_ (Nat.lt_succ_self _)
      (fun place _ => ordered.count_notMem place) ?_ (fun place isPlace => List.mem_range.mp isPlace)
    · exact fun place _ => (ordered.predecessors_eq (Nat.zero_le _)).symm
    · intro place _ other isMember
      rw [newAnchor, sameAnchor other (older place other (below_subset _ _ _ isMember))]
      exact (anchorOf_below isMember).le
    · intro place _ other isMember
      rw [newAnchor, sameAnchor other (older place other (notBelow_subset _ _ _ isMember))]
      exact ordered.le_anchorOf_notBelow isMember
    · intro place isPlace
      exact .inl (List.mem_range.mpr (by have := List.mem_range.mp isPlace; omega))
  have same : SameNodes linked (slist.makeNewNode anchor remote type).2 := by
    rw [isLinked]
    exact (linkLevels_spec _ _ _ List.nodup_range).1.trans (sameNodes_setCurrentLevel _ _)
  have nextEq : linked.forward 0 slist.count = (slist.notBelow (levels 0) anchor).head? := by
    have chain := linkedOrdered.linked 0
    simp only [insertedLevels, if_pos (List.mem_range.mpr positive)] at chain
    exact chain.suffix.next_eq_head?
  have lastEq : slist.predecessors anchor 0 0 = (slist.below (levels 0) anchor).getLastD head :=
    ordered.predecessors_eq (Nat.zero_le _)
  rw [nextEq, lastEq] at inserted
  have nextOld : (slist.notBelow (levels 0) anchor).head? ≠ some slist.count := by
    intro isNew
    have isMember := List.mem_of_mem_head? (Option.mem_def.mpr isNew)
    exact older 0 _ (notBelow_subset _ _ _ isMember) rfl
  have backwardOld : ∀ other ≠ slist.count,
      (linked.nodes other).backward = (slist.nodes other).backward := fun other differs => by
    rw [same.backward, nodes_makeNewNode_of_ne differs]
  have fields : ∀ result : SkipList, result.count = linked.count →
      (∀ other, (result.nodes other).anchor = (linked.nodes other).anchor ∧
        (result.nodes other).dataNode = (linked.nodes other).dataNode ∧
        (result.nodes other).type = (linked.nodes other).type ∧
        (result.nodes other).ctx = (linked.nodes other).ctx) →
      (∀ other, (result.nodes other).backward =
        if (slist.notBelow (levels 0) anchor).head? = some other then some slist.count
        else if other = slist.count then some ((slist.below (levels 0) anchor).getLastD head)
        else (slist.nodes other).backward) →
      Created slist result anchor remote type ((slist.below (levels 0) anchor).getLastD head)
        (slist.notBelow (levels 0) anchor).head? := by
    intro result count kept backward
    refine ⟨count.trans same.count, fun other differs => ?_, ?_, ?_, ?_, ?_, backward⟩
    · obtain ⟨keptAnchor, keptData, keptType, keptCtx⟩ := kept other
      rw [keptAnchor, keptData, keptType, keptCtx, same.anchor, same.dataNode, same.type, same.ctx,
        nodes_makeNewNode_of_ne differs]
      exact ⟨rfl, rfl, rfl, rfl⟩
    · rw [(kept slist.count).1, same.anchor, nodes_makeNewNode_self]
      rfl
    · rw [(kept slist.count).2.1, same.dataNode, nodes_makeNewNode_self]
      rfl
    · rw [(kept slist.count).2.2.1, same.type, nodes_makeNewNode_self]
      rfl
    · rw [(kept slist.count).2.2.2, same.ctx, nodes_makeNewNode_self]
      rfl
  cases next : (slist.notBelow (levels 0) anchor).head? with
  | none =>
    simp only [next] at inserted fields
    rw [inserted]
    refine ⟨linkedOrdered.setBackward _ _, fields _ rfl ?_ fun other => ?_⟩
    · intro other
      simp [nodes_setBackward]
    · rw [nodes_setBackward]
      by_cases isNew : other = slist.count
      · simp [isNew]
      · simp [isNew, backwardOld other isNew]
  | some successor =>
    simp only [next] at inserted fields
    rw [inserted]
    refine ⟨(linkedOrdered.setBackward _ _).setBackward _ _, fields _ rfl ?_ fun other => ?_⟩
    · intro other
      simp [nodes_setBackward]
    · rw [nodes_setBackward, nodes_setBackward]
      have successorOld : successor ≠ slist.count := fun isNew => nextOld (by rw [next, isNew])
      by_cases isNext : other = successor
      · simp [isNext]
      · have notSome : ¬ some successor = some other := fun same => isNext (Option.some.inj same).symm
        by_cases isNew : other = slist.count
        · subst isNew
          simp [isNext, notSome]
        · simp [isNext, notSome, isNew, backwardOld other isNew]

/-- `async_update` gives the new node its fields and leaves every other node's alone. -/
theorem linkBehind_created (slist : SkipList) (dataNode : NodeId) (anchor : Str) (remote : RemotePointer)
    (type : LinkedNodeType) :
    (slist.linkBehind dataNode anchor type remote).1 = slist.count ∧
      Created slist (slist.linkBehind dataNode anchor type remote).2 anchor remote type dataNode none := by
  obtain ⟨linked, isLinked⟩ : ∃ linked, linked =
      (((slist.makeNewNode anchor remote type).2.setForward 0 slist.count
        (slist.forward 0 dataNode)).setForward 0 dataNode (some slist.count)) := ⟨_, rfl⟩
  have same : SameNodes linked (slist.makeNewNode anchor remote type).2 := by
    rw [isLinked]
    exact (sameNodes_setForward _ _ _ _).trans (sameNodes_setForward _ _ _ _)
  have unfolded : slist.linkBehind dataNode anchor type remote =
      (slist.count, linked.setBackward slist.count (some dataNode)) := by
    rw [isLinked]
    rfl
  rw [unfolded]
  refine ⟨rfl, same.count, fun other differs => ?_, ?_, ?_, ?_, ?_, fun other => ?_⟩
  · rw [nodes_setBackward]
    simp only [same.anchor, same.dataNode, same.type, same.ctx, nodes_makeNewNode_of_ne differs]
    exact ⟨trivial, trivial, trivial, trivial⟩
  · rw [nodes_setBackward]
    simp only [same.anchor, nodes_makeNewNode_self, SkipListNode.makeSkipNode]
  · rw [nodes_setBackward]
    simp only [same.dataNode, nodes_makeNewNode_self, SkipListNode.makeSkipNode]
  · rw [nodes_setBackward]
    simp only [same.type, nodes_makeNewNode_self, SkipListNode.makeSkipNode]
  · rw [nodes_setBackward]
    simp only [same.ctx, nodes_makeNewNode_self, SkipListNode.makeSkipNode]
  · rw [nodes_setBackward]
    by_cases isNew : other = slist.count
    · simp [isNew]
    · simp [isNew, same.backward, nodes_makeNewNode_of_ne isNew]

/-- `async_update` links behind the node it is given and leaves every other
`backward` pointer as it was. -/
theorem Ordered.linkBehind (ordered : slist.Ordered levels) {before after : List NodeId}
    {dataNode : NodeId} (anchor : Str) (remote : RemotePointer) (type : LinkedNodeType)
    (split : levels 0 = before ++ after) (isLast : before.getLastD head = dataNode)
    (low : ∀ other ∈ before, slist.anchorOf other ≤ anchor)
    (high : ∀ other ∈ after, anchor ≤ slist.anchorOf other) :
    (slist.linkBehind dataNode anchor type remote).1 = slist.count ∧
      (slist.linkBehind dataNode anchor type remote).2.Ordered
        (insertedLevels levels (fun _ => before) (fun _ => after) [0] slist.count) ∧
      Created slist (slist.linkBehind dataNode anchor type remote).2 anchor remote type dataNode none := by
  have isMember : dataNode ∈ head :: levels 0 := by
    rw [← isLast, split, ← List.cons_append]
    exact List.mem_append_left _ List.getLastD_mem_cons
  have older : ∀ other ∈ levels 0, other ≠ slist.count := fun other inLevel =>
    (ordered.known 0 other (List.mem_cons_of_mem _ inLevel)).ne
  have dataOld : dataNode ≠ slist.count := (ordered.known 0 dataNode isMember).ne
  have sameAnchor : ∀ other ≠ slist.count,
      (slist.makeNewNode anchor remote type).2.anchorOf other = slist.anchorOf other :=
    fun other differs => by rw [anchorOf, nodes_makeNewNode_of_ne differs]
  have newAnchor : (slist.makeNewNode anchor remote type).2.anchorOf slist.count = anchor := by
    rw [anchorOf, nodes_makeNewNode_self]
    rfl
  have sameNext : (slist.makeNewNode anchor remote type).2.forward 0 dataNode =
      slist.forward 0 dataNode := by
    rw [forward, nodes_makeNewNode_of_ne dataOld, forward]
  have published : slist.publishBehind dataNode anchor type remote =
      (slist.count, linkLevel (fun _ => dataNode) slist.count
        (slist.makeNewNode anchor remote type).2 0) := by
    unfold publishBehind linkLevel
    rw [sameNext]
    rfl
  obtain ⟨_, created⟩ := linkBehind_created slist dataNode anchor remote type
  have linked := (ordered.makeNewNode anchor remote type).linkLevels slist.count
    (fun _ => before) (fun _ => after) (fun _ => dataNode) 1 (List.nodup_singleton 0)
    (fun place isPlace => by rw [List.mem_singleton.mp isPlace, split]) (fun _ _ => isLast)
    (fun _ _ other inBefore => by
      rw [newAnchor, sameAnchor other (older other (split ▸ List.mem_append_left _ inBefore))]
      exact low other inBefore)
    (fun _ _ other inAfter => by
      rw [newAnchor, sameAnchor other (older other (split ▸ List.mem_append_right _ inAfter))]
      exact high other inAfter)
    (Nat.lt_succ_self _) (fun place _ => ordered.count_notMem place)
    (fun place isPlace => absurd (List.mem_singleton.mp isPlace) (Nat.succ_ne_zero _))
    (fun place isPlace => by rw [List.mem_singleton.mp isPlace]; exact Nat.one_pos)
  have sameLevel : { (slist.makeNewNode anchor remote type).2 with
      currentLevel := max (slist.makeNewNode anchor remote type).2.currentLevel 1 } =
      (slist.makeNewNode anchor remote type).2 := by
    have atLeast : max (slist.makeNewNode anchor remote type).2.currentLevel 1 =
        (slist.makeNewNode anchor remote type).2.currentLevel :=
      max_eq_left (ordered.makeNewNode anchor remote type).bottom
    rw [atLeast]
  rw [sameLevel] at linked
  unfold SkipList.linkBehind at created ⊢
  simp only [published] at created ⊢
  exact ⟨trivial, linked.setBackward _ _, created⟩

/-- A list of `head` and two nodes, numbered in order of insertion. -/
structure TwoNodes (slist : SkipList) (fakeHead : RemotePointer) (first second : Str)
    (firstRemote secondRemote : RemotePointer) (firstType secondType : LinkedNodeType) : Prop where
  count : slist.count = 3
  headNode : (slist.nodes head).dataNode = fakeHead
  headType : (slist.nodes head).type = .typeHead
  anchor : (slist.nodes 1).anchor = first ∧ (slist.nodes 2).anchor = second
  dataNode : (slist.nodes 1).dataNode = firstRemote ∧ (slist.nodes 2).dataNode = secondRemote
  type : (slist.nodes 1).type = firstType ∧ (slist.nodes 2).type = secondType
  backward : (slist.nodes 1).backward = some (if first = second then 2 else head) ∧
    (slist.nodes 2).backward = some (if first = second then head else 1)
  ctx : ∀ node, (slist.nodes node).ctx = none

/-- The list after its first two insertions; a second anchor that equals the first
one is linked before it. -/
theorem insert_two_spec (fakeHead : RemotePointer) {first second : Str} (ordered : first ≤ second)
    (firstRemote secondRemote : RemotePointer) (firstType secondType : LinkedNodeType)
    {firstLevel secondLevel : Nat} (firstPositive : 0 < firstLevel) (secondPositive : 0 < secondLevel) :
    ∃ levels, (((empty fakeHead).insert first firstRemote firstType firstLevel).insert second
        secondRemote secondType secondLevel).Ordered levels ∧
      levels 0 = (if first = second then [2, 1] else [1, 2]) ∧
      TwoNodes (((empty fakeHead).insert first firstRemote firstType firstLevel).insert second
        secondRemote secondType secondLevel) fakeHead first second firstRemote secondRemote firstType
        secondType := by
  obtain ⟨orderedFirst, createdFirst⟩ :=
    (ordered_empty fakeHead).insert first firstRemote firstType firstPositive
  generalize (empty fakeHead).insert first firstRemote firstType firstLevel = once at *
  replace createdFirst : Created (empty fakeHead) once first firstRemote firstType head none := createdFirst
  obtain ⟨levels, isLevels⟩ : ∃ levels, levels = insertedLevels (fun _ => [])
      (fun _ => (empty fakeHead).below [] first) (fun _ => (empty fakeHead).notBelow [] first)
      (List.range firstLevel) (empty fakeHead).count := ⟨_, rfl⟩
  have levelZero : levels 0 = [1] := by
    rw [isLevels, insertedLevels, if_pos (List.mem_range.mpr firstPositive)]
    rfl
  rw [← isLevels] at orderedFirst
  have count : once.count = 2 := createdFirst.count
  have anchor : once.anchorOf 1 = first := createdFirst.anchor
  obtain ⟨orderedSecond, createdSecond⟩ :=
    orderedFirst.insert second secondRemote secondType secondPositive
  have last : (once.below (levels 0) second).getLastD head = if first = second then head else 1 := by
    rw [below, levelZero]
    by_cases same : first = second
    · subst same
      simp [anchor]
    · simp [same, anchor, lt_of_le_of_ne ordered same]
  have next : (once.notBelow (levels 0) second).head? = if first = second then some 1 else none := by
    rw [notBelow, levelZero]
    by_cases same : first = second
    · subst same
      simp [anchor]
    · simp [same, anchor, lt_of_le_of_ne ordered same]
  refine ⟨_, orderedSecond, ?_, ?_⟩
  · rw [insertedLevels, if_pos (List.mem_range.mpr secondPositive), below, notBelow, levelZero, count]
    by_cases same : first = second
    · subst same
      simp [anchor]
    · simp [same, anchor, lt_of_le_of_ne ordered same]
  · rw [last, next] at createdSecond
    generalize once.insert second secondRemote secondType secondLevel = twice at *
    have oldOne := createdSecond.old 1 (by rw [count]; decide)
    have oldHead := createdSecond.old head (by rw [count]; decide)
    have emptyHead := createdFirst.old head Nat.zero_ne_one
    have newSecond := createdSecond.anchor
    have newRemote := createdSecond.dataNode
    have newType := createdSecond.type
    rw [count] at newSecond newRemote newType
    refine ⟨by rw [createdSecond.count, count], oldHead.2.1.trans emptyHead.2.1,
      oldHead.2.2.1.trans emptyHead.2.2.1, ⟨oldOne.1.trans createdFirst.anchor, newSecond⟩,
      ⟨oldOne.2.1.trans createdFirst.dataNode, newRemote⟩,
      ⟨oldOne.2.2.1.trans createdFirst.type, newType⟩, ⟨?_, ?_⟩, ?_⟩
    · rw [createdSecond.backward, createdFirst.backward, count]
      by_cases same : first = second <;> simp [same, empty]
    · rw [createdSecond.backward, count]
      by_cases same : first = second <;> simp [same]
    · intro node
      by_cases isSecond : node = 2
      · rw [isSecond, ← count]
        exact createdSecond.ctx
      · rw [(createdSecond.old node (by rw [count]; exact isSecond)).2.2.2]
        by_cases isFirst : node = 1
        · rw [isFirst]
          exact createdFirst.ctx
        · exact (createdFirst.old node isFirst).2.2.2

end SkipList

end DiStore.SearchLayer
