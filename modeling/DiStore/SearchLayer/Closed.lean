import DiStore.SearchLayer.Ordered

/-!
Contract: what every run of the client keeps of the search layer.

Owns: lists whose links lead to known nodes (`SkipList.Closed`), how far a list can
change under a call that holds its locks (`SkipList.Evolves`), and the stores to `ctx`.

Does not own: sorted levels (`SearchLayer.Ordered`).
-/

set_option autoImplicit false

namespace DiStore.SearchLayer.SkipList

open DiStore.Concurrency DiStore.DataLayer DiStore.Library

variable {slist before after : SkipList} {level : Nat} {node target : NodeId}

/-- Every link leads to a node of the list. -/
structure Closed (slist : SkipList) : Prop where
  positive : 0 < slist.count
  links : ∀ level node next, slist.forward level node = some next → next < slist.count

theorem closed_empty (fakeHead : RemotePointer) : (empty fakeHead).Closed :=
  ⟨Nat.one_pos, fun _ _ _ isLink => by cases isLink⟩

/-- A list with the links of another one, and at least its nodes. -/
theorem Closed.congr (closed : before.Closed)
    (links : ∀ level node, after.forward level node = before.forward level node)
    (grows : before.count ≤ after.count) : after.Closed := by
  refine ⟨closed.positive.trans_le grows, fun level node next isLink => ?_⟩
  rw [links] at isLink
  exact (closed.links level node next isLink).trans_le grows

theorem Closed.setForward (closed : slist.Closed) (level : Nat) (node : NodeId) (target : Option NodeId)
    (known : ∀ next, target = some next → next < slist.count) :
    (slist.setForward level node target).Closed := by
  refine ⟨closed.positive, fun place other next isLink => ?_⟩
  rw [forward_setForward] at isLink
  change next < slist.count
  split at isLink
  next =>
    by_cases same : other = node
    · rw [same, Function.update_self] at isLink
      exact known next isLink
    · rw [Function.update_of_ne same] at isLink
      exact closed.links level other next isLink
  next => exact closed.links place other next isLink

theorem Closed.makeNewNode (closed : slist.Closed) (anchor : Str) (remote : RemotePointer)
    (type : LinkedNodeType) : (slist.makeNewNode anchor remote type).2.Closed := by
  refine ⟨Nat.succ_pos _, fun level other next isLink => ?_⟩
  change next < slist.count + 1
  by_cases same : other = slist.count
  · rw [same, forward, nodes_makeNewNode_self] at isLink
    cases isLink
  · rw [forward, nodes_makeNewNode_of_ne same] at isLink
    exact (closed.links level other next isLink).trans (Nat.lt_succ_self _)

theorem Closed.linkLevels (closed : slist.Closed) (update : Nat → NodeId) (known : node < slist.count)
    (places : List Nat) : (places.foldl (linkLevel update node) slist).Closed := by
  induction places generalizing slist with
  | nil => exact closed
  | cons place places ih =>
      have first := closed.setForward place node _ (closed.links place (update place))
      have second := first.setForward place (update place) (some node)
        (fun next isNode => Option.some.inj isNode ▸ known)
      exact ih second known

theorem Closed.linkBehind (closed : slist.Closed) (dataNode : NodeId) (anchor : Str)
    (remote : RemotePointer) (type : LinkedNodeType) :
    (slist.linkBehind dataNode anchor type remote).2.Closed := by
  have made := closed.makeNewNode anchor remote type
  have first := made.setForward 0 slist.count (slist.forward 0 dataNode)
    (fun next isLink => (closed.links 0 dataNode next isLink).trans (Nat.lt_succ_self _))
  have second := first.setForward 0 dataNode (some slist.count)
    (fun next isNode => Option.some.inj isNode ▸ Nat.lt_succ_self _)
  exact second.congr
    (fun level => congrFun (forward_setBackward _ slist.count (some dataNode) level)) le_rfl

theorem Closed.insert (closed : slist.Closed) (anchor : Str) (remote : RemotePointer)
    (type : LinkedNodeType) (level : Nat) : (slist.insert anchor remote type level).Closed := by
  obtain ⟨linked, isLinked, inserted⟩ := insert_eq slist anchor remote type level
  have made := @Closed.congr _ { (slist.makeNewNode anchor remote type).2 with
    currentLevel := max slist.currentLevel level } (closed.makeNewNode anchor remote type)
    (fun _ _ => rfl) le_rfl
  have links := made.linkLevels (slist.predecessors anchor 0) (Nat.lt_succ_self slist.count) (List.range level)
  rw [← isLinked] at links
  rw [inserted]
  split
  next next isNext =>
    exact links.congr (fun level node => by rw [forward_setBackward, forward_setBackward]) le_rfl
  next => exact links.congr (fun level node => by rw [forward_setBackward]) le_rfl

/-- An insertion gives no node a lock. -/
theorem insert_ctx (free : ∀ id, (slist.nodes id).ctx = none) (anchor : Str) (remote : RemotePointer)
    (type : LinkedNodeType) (level : Nat) (id : NodeId) :
    ((slist.insert anchor remote type level).nodes id).ctx = none := by
  obtain ⟨linked, isLinked, inserted⟩ := insert_eq slist anchor remote type level
  have same : SameNodes linked (slist.makeNewNode anchor remote type).2 := by
    rw [isLinked]
    exact (linkLevels_spec _ _ _ List.nodup_range).1.trans (sameNodes_setCurrentLevel _ _)
  have linkedFree : ∀ other, (linked.nodes other).ctx = none := by
    intro other
    rw [same.ctx]
    by_cases isNew : other = slist.count
    · rw [isNew, nodes_makeNewNode_self]
      rfl
    · rw [nodes_makeNewNode_of_ne isNew]
      exact free other
  rw [inserted]
  split
  next next isNext =>
    rw [nodes_setBackward, nodes_setBackward]
    exact linkedFree id
  next =>
    rw [nodes_setBackward]
    exact linkedFree id

theorem insert_count (slist : SkipList) (anchor : Str) (remote : RemotePointer) (type : LinkedNodeType)
    (level : Nat) : (slist.insert anchor remote type level).count = slist.count + 1 := by
  obtain ⟨linked, isLinked, inserted⟩ := insert_eq slist anchor remote type level
  have count : linked.count = slist.count + 1 := by
    rw [isLinked, (linkLevels_spec _ _ _ List.nodup_range).1.count]
    rfl
  rw [inserted]
  split
  next => exact count
  next => exact count

theorem Closed.calibrate (closed : slist.Closed) (known : node < slist.count) (level : Nat) :
    (slist.calibrate node level).Closed := by
  have raised := @Closed.congr _ { slist with currentLevel := max slist.currentLevel level } closed
    (fun _ _ => rfl) le_rfl
  exact raised.linkLevels _ known (List.range' 1 (level - 1))

/-- A walk that starts at a known node ends at one. -/
theorem Closed.walk_lt (closed : slist.Closed) (level : Nat) (passes : NodeId → Bool) (fuel : Nat)
    (known : node < slist.count) : walk (slist.forward level) passes fuel node < slist.count := by
  induction fuel generalizing node with
  | zero => exact known
  | succ fuel ih =>
      unfold walk
      cases isNext : slist.forward level node with
      | none => exact known
      | some next =>
          change (if passes next then _ else _) < slist.count
          split
          next => exact ih (closed.links level node next isNext)
          next => exact known

theorem Closed.descend_lt (closed : slist.Closed) (anchor : Str) (bottom level : Nat)
    (update : Nat → NodeId) (known : node < slist.count) :
    (slist.descend anchor bottom level node update).1 < slist.count := by
  induction level generalizing node update with
  | zero => exact known
  | succ level ih =>
      unfold descend
      split
      next => exact known
      next => exact ih _ (closed.walk_lt level _ _ known)

theorem Closed.fuzzySearch_lt (closed : slist.Closed) {member : Str}
    (found : slist.fuzzySearch member = some node) : node < slist.count := by
  have walked := closed.descend_lt member 0 slist.currentLevel (fun _ => head) closed.positive
  unfold fuzzySearch at found
  simp only at found
  split at found
  next => exact Option.some.inj found ▸ walked
  next next isNext =>
    split at found
    next => exact Option.some.inj found ▸ closed.links _ _ next isNext
    next =>
      split at found
      next => exact Option.some.inj found ▸ walked
      next => cases found

/-! ### Stores to a lock -/

theorem setCtx_closed {slist : SkipList} (closed : slist.Closed) (id : NodeId) (ctx : Option ThreadId) :
    (slist.setCtx id ctx).Closed := by
  apply @Closed.congr _ (slist.setCtx id ctx) closed _ le_rfl
  intro level other
  by_cases same : other = id
  · subst same
    simp [forward, setCtx, setNode]
  · simp [forward, setCtx, setNode, same]

theorem setCtx_ctx (slist : SkipList) (id : NodeId) (ctx : Option ThreadId) (other : NodeId) :
    ((slist.setCtx id ctx).nodes other).ctx = if other = id then ctx else (slist.nodes other).ctx := by
  by_cases same : other = id
  · subst same
    simp [setCtx, setNode]
  · simp [setCtx, setNode, same]

theorem setCtx_backward (slist : SkipList) (id : NodeId) (ctx : Option ThreadId) (other : NodeId) :
    ((slist.setCtx id ctx).nodes other).backward = (slist.nodes other).backward := by
  by_cases same : other = id
  · subst same
    simp [setCtx, setNode]
  · simp [setCtx, setNode, same]

/-- Taking a lock and releasing it leaves the list as it was. -/
theorem setCtx_release {slist : SkipList} (free : (slist.nodes target).ctx = none) (ctx : Option ThreadId) :
    (slist.setCtx target ctx).setCtx target none = slist := by
  cases slist with
  | mk nodes count currentLevel =>
      have restored : Function.update (Function.update nodes target { nodes target with ctx := ctx }) target
          { (Function.update nodes target { nodes target with ctx := ctx }) target with ctx := none } =
            nodes := by
        rw [Function.update_idem, Function.update_self]
        change (nodes target).ctx = none at free
        have same : ({ nodes target with ctx := none } : SkipListNode) = nodes target := by
          rw [← free]
        rw [same, Function.update_eq_self]
      unfold setCtx setNode
      simp only
      rw [restored]

/-! ### Growing lists -/

/-- The list only grows, locks are only released, and a node keeps what it points back to. -/
structure Evolves (before after : SkipList) : Prop where
  count : before.count ≤ after.count
  closed : before.Closed → after.Closed
  ctx : ∀ id, (after.nodes id).ctx = (before.nodes id).ctx ∨ (after.nodes id).ctx = none
  backward : ∀ id < before.count, (after.nodes id).backward = (before.nodes id).backward

theorem Evolves.refl (slist : SkipList) : Evolves slist slist :=
  ⟨le_rfl, id, fun _ => Or.inl rfl, fun _ _ => rfl⟩

theorem Evolves.trans {first second third : SkipList} (left : Evolves first second)
    (right : Evolves second third) : Evolves first third where
  count := left.count.trans right.count
  closed isClosed := right.closed (left.closed isClosed)
  ctx id := by
    rcases right.ctx id with same | released
    · rw [same]
      exact left.ctx id
    · exact Or.inr released
  backward id known := (right.backward id (known.trans_le left.count)).trans (left.backward id known)

/-- A store to one node that keeps its links, or takes its lock away. -/
theorem evolves_setNode (slist : SkipList) (id : NodeId) (content : SkipListNode)
    (forwards : content.forwards = (slist.nodes id).forwards)
    (backward : content.backward = (slist.nodes id).backward)
    (ctx : content.ctx = (slist.nodes id).ctx ∨ content.ctx = none) :
    Evolves slist (slist.setNode id content) where
  count := le_rfl
  closed isClosed := by
    refine @Closed.congr _ (slist.setNode id content) isClosed ?_ le_rfl
    intro level other
    by_cases same : other = id
    · subst same
      simp [SkipList.forward, SkipList.setNode, forwards]
    · simp [SkipList.forward, SkipList.setNode, same]
  ctx other := by
    by_cases same : other = id
    · subst same
      simpa [SkipList.setNode] using ctx
    · simp [SkipList.setNode, same]
  backward other _ := by
    by_cases same : other = id
    · subst same
      simpa [SkipList.setNode] using backward
    · simp [SkipList.setNode, same]

theorem evolves_linkBehind (slist : SkipList) (dataNode : NodeId) (anchor : Str) (type : LinkedNodeType)
    (remote : RemotePointer) : Evolves slist (slist.linkBehind dataNode anchor type remote).2 := by
  obtain ⟨_, created⟩ := SkipList.linkBehind_created slist dataNode anchor remote type
  refine ⟨by rw [created.count]; exact Nat.le_succ _, fun closed => closed.linkBehind _ _ _ _, ?_, ?_⟩
  · intro id
    by_cases isNew : id = slist.count
    · rw [isNew]
      exact Or.inr created.ctx
    · exact Or.inl (created.old id isNew).2.2.2
  · intro id known
    rw [created.backward, if_neg (by simp), if_neg known.ne]

end DiStore.SearchLayer.SkipList
