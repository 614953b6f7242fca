import DiStore.Cluster.LocalShape
import DiStore.Common.Digests

/-!
Contract: the local stage as a key-value map.

Owns: what the answers of a history of calls should be, the calls on which the
two nodes are addressed consistently (`LocalStage.Guarded`), the invariant that
ties the two nodes to the abstract map, and the run-level agreement.

`get` sends a key equal to the second anchor to the second node; `put` and
`update` send it to the first one, and `update` also looks in the second node
while there is no second anchor. `Guarded` is exactly the absence of those
mismatches that an answer can reveal.
-/

set_option autoImplicit false

namespace DiStore.Cluster

open DiStore.DataLayer

/-! ### What a history promises -/

/-- Calls with their answers, oldest first. -/
abbrev History := List (LocalCall × Answer)

def History.WasPut (history : History) (key : Bytes16) : Prop :=
  ∃ value answer, (LocalCall.put key value, answer) ∈ history

/-- Value of the first `put` of the key. -/
def History.firstPut (history : History) (key : Bytes16) : Option Bytes16 :=
  history.findSome? fun event =>
    match event with
    | (.put target value, _) => if target = key then some value else none
    | _ => none

/-- Value of the latest successful `update` of the key. -/
def History.lastUpdate (history : History) (key : Bytes16) : Option Bytes16 :=
  history.reverse.findSome? fun event =>
    match event with
    | (.update target value, .done true) => if target = key then some value else none
    | _ => none

/-- The value the key should have. -/
def History.mapped (history : History) (key : Bytes16) : Option Bytes16 :=
  (history.lastUpdate key).or (history.firstPut key)

/-- The answer is the one a map with this history gives. -/
def History.Faithful (history : History) : LocalCall × Answer → Prop
  | (.put _ _, answer) => answer = .done true
  | (.update key _, answer) => ∃ updated, answer = .done updated ∧ (updated = true ↔ history.WasPut key)
  | (.get key, answer) =>
      answer = .found (history.mapped key) ∧ (history.mapped key = none ↔ ¬ history.WasPut key)

/-- Every answer is faithful to the calls before it. -/
def History.IsMap (history : History) : Prop :=
  ∀ before event after, history = before ++ event :: after → History.Faithful before event

/-! ### The calls that address one node consistently -/

variable [Digest]

/-- * a `put` that would create the second anchor does not repeat the first
    anchor with another value;
* an `update` before the second anchor exists is not for the only stored key;
* an `update` of the second anchor finds a copy in the first node and writes the
  value `get` already returns. -/
def LocalStage.Guarded (stage : LocalStage) : LocalCall → Prop
  | .put key value =>
      stage.anchors 1 = [] → stage.anchors 0 = key.val → (stage.nodes 0).find key.val = some value
  | .update key value =>
      (stage.anchors 1 = [] → stage.anchors 0 ≠ key.val) ∧
      (stage.anchors 1 = key.val →
        ((stage.nodes 0).find key.val).isSome ∧ (stage.nodes 1).find key.val = some value)
  | .get _ => True

/-- Every call of the sequence is guarded in the stage it meets. -/
def LocalStage.AllGuarded : LocalStage → List LocalCall → Prop
  | _, [] => True
  | stage, first :: rest =>
      stage.Guarded first ∧
        match stage.call first with
        | none => True
        | some (next, _) => next.AllGuarded rest

instance (stage : LocalStage) : (call : LocalCall) → Decidable (stage.Guarded call)
  | .put key value => inferInstanceAs (Decidable (stage.anchors 1 = [] →
      stage.anchors 0 = key.val → (stage.nodes 0).find key.val = some value))
  | .update key value => inferInstanceAs (Decidable ((stage.anchors 1 = [] →
      stage.anchors 0 ≠ key.val) ∧ (stage.anchors 1 = key.val →
        ((stage.nodes 0).find key.val).isSome ∧ (stage.nodes 1).find key.val = some value)))
  | .get _ => inferInstanceAs (Decidable True)

instance decideAllGuarded : (stage : LocalStage) → (calls : List LocalCall) →
    Decidable (stage.AllGuarded calls)
  | _, [] => inferInstanceAs (Decidable True)
  | stage, first :: rest =>
      let _ : Decidable (match stage.call first with
          | none => True
          | some (next, _) => next.AllGuarded rest) :=
        match stage.call first with
        | none => inferInstanceAs (Decidable True)
        | some (next, _) => decideAllGuarded next rest
      inferInstanceAs (Decidable (stage.Guarded first ∧ _))

/-! ### The invariant -/

/-- The node that the local branch of `get` reads. -/
def LocalStage.readSlot (stage : LocalStage) (key : Str) : Fin 2 :=
  if stage.anchors 1 ≠ [] ∧ ¬ key < stage.anchors 1 then 1 else 0

/-- The two local nodes denote `map`. -/
structure LocalStage.Denotes (stage : LocalStage) (map : Bytes16 → Option Bytes16) : Prop where
  shape : stage.Shape
  lookup : ∀ key : Bytes16, (stage.nodes (stage.readSlot key.val)).find key.val = map key

namespace LocalStage

variable {stage next : LocalStage} {map : Bytes16 → Option Bytes16} {key value : Bytes16}

theorem get_eq (stage : LocalStage) (key : Str) :
    stage.get key = (stage.nodes (stage.readSlot key)).find key := by
  unfold get readSlot
  split <;> rfl

theorem Denotes.get (denotes : stage.Denotes map) (key : Bytes16) :
    stage.get key.val = map key := by
  rw [get_eq]
  exact denotes.lookup key

theorem denotes_initial (heap : Fin 2 → LinkedNode) :
    (initial heap).Denotes fun _ => none where
  shape := shape_initial heap
  lookup _ := LinkedNode.find_of_next_zero rfl _

/-- The map after a `put`: an existing binding stays. -/
def putMap (map : Bytes16 → Option Bytes16) (key value : Bytes16) : Bytes16 → Option Bytes16 :=
  Function.update map key ((map key).or (some value))

/-- The map after an `update`: only an existing binding changes. -/
def updateMap (map : Bytes16 → Option Bytes16) (key value : Bytes16) : Bytes16 → Option Bytes16 :=
  Function.update map key ((map key).map fun _ => value)

theorem find_none_of_not_holds {node : LinkedNode} (missing : ¬ node.Holds key) :
    node.find key.val = none := by
  by_contra found
  exact missing (LinkedNode.holds_of_find (Option.isSome_iff_ne_none.mpr found))

/-- A guarded `put` that stays local adds at most its own binding. -/
theorem denotes_quickPut (denotes : stage.Denotes map)
    (guarded : stage.Guarded (.put key value))
    (stayed : stage.quickPut key.val value.val = some next) :
    next.Denotes (putMap map key value) := by
  refine ⟨shape_quickPut denotes.shape stayed, ?_⟩
  obtain ⟨picked, slot, pick, room, rfl⟩ := quickPut_eq_some stayed
  intro other
  have nodeEq : ∀ place, ((picked.setNode slot
      ((picked.nodes slot).store 10 key.val value.val).2).nodes place).find other.val =
      if place = slot ∧ other = key then ((picked.nodes slot).find key.val).or (some value)
      else (picked.nodes place).find other.val := by
    intro place
    by_cases here : place = slot
    · subst here
      simp [setNode, LinkedNode.find_store room]
    · simp [setNode, here]
  rw [nodeEq]
  have reads : (picked.setNode slot ((picked.nodes slot).store 10 key.val value.val).2).readSlot other.val =
      picked.readSlot other.val := rfl
  rw [reads]
  -- Which keys a node lacks follows from the shape alone.
  have lacks : ∀ place (probe : Bytes16), ¬ (stage.nodes place).Holds probe →
      (stage.nodes place).find probe.val = none := fun _ _ => find_none_of_not_holds
  have found : ∀ place (probe : Bytes16), (stage.nodes place).Holds probe →
      ((stage.nodes place).find probe.val).isSome :=
    fun place _ => (LinkedNode.find_isSome_iff (denotes.shape.marked place)).mpr
  have lookup := denotes.lookup
  obtain ⟨_, _, _, _, unset, above, secondAbove, ordered, single, held, twin⟩ := denotes.shape
  have keyAboveNil := nil_lt_key key
  have keyNotNil := key.ne_nil
  have secondMapped : stage.anchors 1 = key.val → (map key).isSome = true := by
    intro isAnchor
    rw [← lookup key, readSlot, if_pos (by simp [isAnchor, keyNotNil])]
    exact found 1 key (held 1 key isAnchor)
  simp only [Guarded] at guarded
  simp only [putMap, Function.update_apply]
  cases pick
  case second hasFirst notBelow noSecond =>
    -- the second node is still empty, and the first holds at most its own anchor
    have mapEq : ∀ probe : Bytes16, map probe = (stage.nodes 0).find probe.val := by
      intro probe
      rw [← lookup probe, readSlot, if_neg (by simp [noSecond])]
    have empty : ∀ probe : Bytes16, (stage.nodes 1).find probe.val = none :=
      fun probe => lacks 1 probe fun inNode => absurd (single noSecond 1 probe inNode).1 (by decide)
    have onlyFirst : ∀ probe : Bytes16, stage.anchors 0 ≠ probe.val →
        (stage.nodes 0).find probe.val = none :=
      fun probe differs => lacks 0 probe fun inNode => differs (single noSecond 0 probe inNode).2
    have newRead : (stage.setAnchor 1 key.val).readSlot other.val = if other.val < key.val then 0 else 1 := by
      by_cases below : other.val < key.val <;> simp [readSlot, setAnchor, keyNotNil, below]
    have nodes : (stage.setAnchor 1 key.val).nodes = stage.nodes := rfl
    rw [newRead, nodes, empty, mapEq, mapEq]
    by_cases same : other = key
    · by_cases repeats : stage.anchors 0 = key.val
      · simp [same, guarded noSecond repeats]
      · simp [same, onlyFirst key repeats]
    · by_cases below : other.val < key.val
      · simp [same, below]
      · have beyond : stage.anchors 0 ≠ other.val := by
          intro isAnchor
          exact same (Subtype.ext (le_antisymm (not_lt.mp (isAnchor ▸ notBelow)) (not_lt.mp below)))
        simp [same, below, empty, onlyFirst other beyond]
  case between hasFirst notBelow hasSecond within =>
    -- a key equal to the second anchor is read from the other node, where it already is
    have read := lookup other
    by_cases same : other = key
    · subst same
      by_cases isAnchor : stage.anchors 1 = other.val
      · obtain ⟨old, isOld⟩ := Option.isSome_iff_exists.mp (secondMapped isAnchor)
        have slotOne : stage.readSlot other.val = 1 := by simp [readSlot, isAnchor, keyNotNil]
        rw [slotOne] at read ⊢
        simp [read, isOld]
      · have below : other.val < stage.anchors 1 :=
          lt_of_le_of_ne (not_lt.mp within) (Ne.symm isAnchor)
        have slotZero : stage.readSlot other.val = 0 := by simp [readSlot, below]
        rw [slotZero] at read ⊢
        simp [read]
    · simp [same, read]
  case swap hasFirst below noSecond =>
    -- the new key gets the empty node, and the old anchor becomes the second one
    have mapEq : ∀ probe : Bytes16, map probe = (stage.nodes 0).find probe.val := by
      intro probe
      rw [← lookup probe, readSlot, if_neg (by simp [noSecond])]
    have empty : ∀ probe : Bytes16, (stage.nodes 1).find probe.val = none :=
      fun probe => lacks 1 probe fun inNode => absurd (single noSecond 1 probe inNode).1 (by decide)
    have beneath : ∀ probe : Bytes16, probe.val < stage.anchors 0 →
        (stage.nodes 0).find probe.val = none :=
      fun probe isBelow => lacks 0 probe fun inNode => above 0 probe inNode isBelow
    have newRead : (stage.swapped.setAnchor 0 key.val).readSlot other.val =
        if stage.anchors 0 ≠ [] ∧ ¬ other.val < stage.anchors 0 then 1 else 0 := rfl
    have lower : (stage.swapped.setAnchor 0 key.val).nodes 0 = stage.nodes 1 := rfl
    have upper : (stage.swapped.setAnchor 0 key.val).nodes 1 = stage.nodes 0 := rfl
    rw [newRead, mapEq, mapEq]
    by_cases same : other = key
    · subst same
      simp [hasFirst, below, lower, empty, beneath]
    · by_cases otherBelow : other.val < stage.anchors 0
      · simp [same, otherBelow, lower, empty, beneath]
      · simp [same, hasFirst, otherBelow, upper]
  all_goals
    simp only [readSlot, setAnchor] at *
    grind -ring

/-- `update` reports whether its node has the key. -/
theorem update_reports (stage : LocalStage) (key value : Bytes16) :
    (stage.update key.val value.val).1 =
      ((stage.nodes (stage.updateSlot key.val)).find key.val).isSome := by
  simp only [update, LinkedNode.update_fst, LinkedNode.find_isSome_eq]

/-- What the two nodes map after an `update`. -/
theorem find_nodes_update (stage : LocalStage) (key value : Bytes16) (place : Fin 2) (other : Bytes16) :
    ((stage.update key.val value.val).2.nodes place).find other.val =
      if place = stage.updateSlot key.val ∧ other = key then
        ((stage.nodes place).find key.val).map fun _ => value
      else (stage.nodes place).find other.val := by
  by_cases here : place = stage.updateSlot key.val
  · have node : (stage.update key.val value.val).2.nodes place =
        ((stage.nodes place).update key.val value.val).2 := by
      simp [update, setNode, here]
    rw [node]
    by_cases same : other = key
    · rw [if_pos ⟨here, same⟩, same]
      cases present : (stage.nodes place).find key.val with
      | none => rw [LinkedNode.update_of_none present, present, Option.map_none]
      | some old => rw [LinkedNode.find_update_self (by rw [present]; rfl), Option.map_some]
    · rw [if_neg (fun both => same both.2), LinkedNode.find_update_of_ne same]
  · simp [update, setNode, here]

/-- A guarded `update` changes the binding it reports, and no other. -/
theorem denotes_update (denotes : stage.Denotes map) (guarded : stage.Guarded (.update key value)) :
    (stage.update key.val value.val).1 = (map key).isSome ∧
      (stage.update key.val value.val).2.Denotes (updateMap map key value) := by
  have lacks : ∀ place (probe : Bytes16), ¬ (stage.nodes place).Holds probe →
      (stage.nodes place).find probe.val = none := fun _ _ => find_none_of_not_holds
  have lookup := denotes.lookup
  have ⟨_, _, _, _, unset, above, secondAbove, ordered, single, held, twin⟩ := denotes.shape
  have keyAboveNil := nil_lt_key key
  simp only [Guarded] at guarded
  have updated := stage.update_reports key value
  have nodeEq := stage.find_nodes_update key value
  have reads : ∀ other, (stage.update key.val value.val).2.readSlot other = stage.readSlot other :=
    fun _ => rfl
  refine ⟨?_, shape_update denotes.shape _ _, ?_⟩
  · rw [updated]
    simp only [updateSlot, readSlot] at *
    grind -ring
  · intro other
    rw [reads, nodeEq]
    simp only [updateMap, Function.update_apply, updateSlot, readSlot] at *
    grind -ring

end LocalStage

/-! ### The map of a growing history -/

namespace History

omit [Digest]

variable {before : History} {key value other : Bytes16}

theorem mapped_put (answer : Answer) :
    mapped (before ++ [(.put key value, answer)]) = LocalStage.putMap before.mapped key value := by
  funext other
  have last : lastUpdate (before ++ [(.put key value, answer)]) other = before.lastUpdate other := by
    simp [lastUpdate]
  have first : firstPut (before ++ [(.put key value, answer)]) other =
      (before.firstPut other).or (if key = other then some value else none) := by
    simp [firstPut, List.findSome?_append]
  simp only [mapped, last, first, LocalStage.putMap, Function.update_apply]
  by_cases same : other = key
  · simp [same]
  · simp [same, Ne.symm same]

theorem mapped_update (before : History) (key value : Bytes16) :
    mapped (before ++ [(.update key value, .done (before.mapped key).isSome)]) =
      LocalStage.updateMap before.mapped key value := by
  funext other
  have first : ∀ updated, firstPut (before ++ [(.update key value, .done updated)]) other =
      before.firstPut other := by
    simp [firstPut, List.findSome?_append]
  have last : ∀ updated, lastUpdate (before ++ [(.update key value, .done updated)]) other =
      (if updated = true ∧ key = other then some value else none).or (before.lastUpdate other) := by
    intro updated
    cases updated <;> by_cases same : key = other <;> simp [lastUpdate, same]
  simp only [mapped, first, last, LocalStage.updateMap, Function.update_apply]
  by_cases same : other = key
  · subst same
    cases bound : (before.lastUpdate other).or (before.firstPut other) <;>
      simp only [bound, Option.isSome_none, Option.isSome_some, Bool.false_eq_true,
        and_true, if_true, if_false, Option.none_or, Option.some_or, Option.map_none,
        Option.map_some]
  · simp [same, Ne.symm same]

theorem mapped_get (answer : Answer) : mapped (before ++ [(.get key, answer)]) = before.mapped := by
  funext other
  simp [mapped, firstPut, lastUpdate, List.findSome?_append]

theorem wasPut_append_put (answer : Answer) :
    WasPut (before ++ [(.put key value, answer)]) other ↔ other = key ∨ before.WasPut other := by
  constructor
  · rintro ⟨stored, given, inHistory⟩
    rcases List.mem_append.mp inHistory with old | new
    · exact .inr ⟨stored, given, old⟩
    · simp only [List.mem_singleton, Prod.mk.injEq, LocalCall.put.injEq] at new
      exact .inl new.1.1
  · rintro (rfl | ⟨stored, given, old⟩)
    · exact ⟨value, answer, List.mem_append_right _ (List.mem_singleton.mpr rfl)⟩
    · exact ⟨stored, given, List.mem_append_left _ old⟩

theorem wasPut_append_other {call : LocalCall} (notPut : ∀ key value, call ≠ .put key value)
    (answer : Answer) : WasPut (before ++ [(call, answer)]) other ↔ before.WasPut other := by
  constructor
  · rintro ⟨stored, given, inHistory⟩
    rcases List.mem_append.mp inHistory with old | new
    · exact ⟨stored, given, old⟩
    · simp only [List.mem_singleton, Prod.mk.injEq] at new
      exact absurd new.1.symm (notPut _ _)
  · rintro ⟨stored, given, old⟩
    exact ⟨stored, given, List.mem_append_left _ old⟩

/-- Exactly the keys that were put have a value. -/
def Total (history : History) : Prop :=
  ∀ key, (history.mapped key).isSome = true ↔ history.WasPut key

theorem total_nil : Total [] := by
  intro key
  simp [mapped, lastUpdate, firstPut, WasPut]

end History

namespace LocalStage

variable {stage next last : LocalStage} {before : History}

/-- One guarded call: the answer is the map's, and the next stage denotes the map
of the longer history. -/
theorem call_step {call : LocalCall} {answer : Answer} (denotes : stage.Denotes before.mapped)
    (total : before.Total) (guarded : stage.Guarded call)
    (stepped : stage.call call = some (next, answer)) :
    History.Faithful before (call, answer) ∧
      next.Denotes (History.mapped (before ++ [(call, answer)])) ∧
        History.Total (before ++ [(call, answer)]) := by
  cases call with
  | put key value =>
    obtain ⟨stored, stayed, pair⟩ := Option.map_eq_some_iff.mp stepped
    obtain ⟨rfl, rfl⟩ := Prod.mk.inj pair
    refine ⟨rfl, ?_, ?_⟩
    · rw [History.mapped_put]
      exact denotes_quickPut denotes guarded stayed
    · intro other
      rw [History.mapped_put, History.wasPut_append_put, ← total other, putMap,
        Function.update_apply]
      by_cases same : other = key <;> simp [same]
  | update key value =>
    obtain ⟨updated, updates⟩ := denotes_update denotes guarded
    obtain ⟨isNext, isAnswer⟩ := Prod.mk.inj (Option.some.inj stepped)
    have isUpdate : (stage.update key.val value.val).2 = next := isNext
    have isDone : Answer.done (stage.update key.val value.val).1 = answer := isAnswer
    subst isUpdate isDone
    rw [updated]
    have notPut : ∀ probe stored, LocalCall.update key value ≠ .put probe stored := by
      intro _ _ isPut
      cases isPut
    refine ⟨⟨_, rfl, total key⟩, ?_, ?_⟩
    · rw [History.mapped_update]
      exact updates
    · intro other
      rw [History.mapped_update, History.wasPut_append_other notPut, ← total other, updateMap,
        Function.update_apply]
      by_cases same : other = key <;> simp [same]
  | get key =>
    obtain ⟨rfl, rfl⟩ := Prod.mk.inj (Option.some.inj stepped)
    have notPut : ∀ probe stored, LocalCall.get key ≠ .put probe stored := by
      intro _ _ isPut
      cases isPut
    refine ⟨⟨by rw [denotes.get], ?_⟩, ?_, ?_⟩
    · rw [← total key]
      simp
    · rw [History.mapped_get]
      exact denotes
    · intro other
      rw [History.mapped_get, History.wasPut_append_other notPut]
      exact total other

/-- A whole run: induction on the calls, with the history so far as the accumulator. -/
theorem calls_faithful (before : History) {calls : List LocalCall} {events : History}
    (denotes : stage.Denotes before.mapped) (total : before.Total)
    (guarded : stage.AllGuarded calls) (ran : stage.calls calls = some (last, events)) :
    ∀ done event rest, events = done ++ event :: rest → History.Faithful (before ++ done) event := by
  induction calls generalizing stage before events with
  | nil =>
    obtain ⟨-, rfl⟩ := Prod.mk.inj (Option.some.inj ran)
    intro done event rest split
    simp at split
  | cons first later ih =>
    obtain ⟨⟨next, answer⟩, stepped, continued⟩ := Option.bind_eq_some_iff.mp ran
    obtain ⟨⟨final, answers⟩, ranLater, pair⟩ := Option.bind_eq_some_iff.mp continued
    obtain ⟨rfl, rfl⟩ := Prod.mk.inj (Option.some.inj pair)
    obtain ⟨guardedFirst, guardedLater⟩ := guarded
    obtain ⟨faithful, denotesNext, totalNext⟩ := call_step denotes total guardedFirst stepped
    rw [stepped] at guardedLater
    have later := ih (before ++ [(first, answer)]) denotesNext totalNext guardedLater ranLater
    intro done event rest split
    cases done with
    | nil =>
      obtain ⟨rfl, -⟩ := List.cons.inj split
      simpa using faithful
    | cons head tail =>
      obtain ⟨rfl, tailSplit⟩ := List.cons.inj split
      simpa using later tail event rest tailSplit

/-- The history records exactly the calls made. -/
theorem calls_fst {calls : List LocalCall} {events : History}
    (ran : stage.calls calls = some (last, events)) : events.map Prod.fst = calls := by
  induction calls generalizing stage events with
  | nil =>
    obtain ⟨-, rfl⟩ := Prod.mk.inj (Option.some.inj ran)
    rfl
  | cons first later ih =>
    obtain ⟨⟨next, answer⟩, stepped, continued⟩ := Option.bind_eq_some_iff.mp ran
    obtain ⟨⟨final, answers⟩, ranLater, pair⟩ := Option.bind_eq_some_iff.mp continued
    obtain ⟨rfl, rfl⟩ := Prod.mk.inj (Option.some.inj pair)
    rw [List.map_cons, ih ranLater]

/-- While every call is guarded, the local stage answers like a map. -/
theorem answers_like_a_map (heap : Fin 2 → LinkedNode) (calls : List LocalCall)
    (guarded : (initial heap).AllGuarded calls) :
    ∀ last history, (initial heap).calls calls = some (last, history) →
      history.map Prod.fst = calls ∧ History.IsMap history := by
  intro last history ran
  refine ⟨calls_fst ran, fun before event after split => ?_⟩
  have faithful := calls_faithful [] (denotes_initial heap) History.total_nil guarded ran
  simpa using faithful before event after split

end LocalStage

end DiStore.Cluster

/-! ### Runs on concrete keys -/

namespace DiStore.Cluster.LocalStage

open DiStore.DataLayer

attribute [local instance] Digests.source

/-- Heap memory that reads as zero bytes. -/
def zeroHeap : Fin 2 → LinkedNode := fun _ => LinkedNode.zeroed

/-- Two puts, an update and a read of the smaller key. -/
def guardedCalls : List LocalCall :=
  [.put (.fill 97) (.fill 1), .put (.fill 98) (.fill 2), .update (.fill 97) (.fill 3),
    .get (.fill 97)]

theorem guardedCalls_like_a_map :
    ∃ last history, (initial zeroHeap).calls guardedCalls = some (last, history) ∧
      history.map Prod.fst = guardedCalls ∧ History.IsMap history := by
  have stays : ((initial zeroHeap).calls guardedCalls).isSome := by decide +kernel
  obtain ⟨⟨last, history⟩, ran⟩ := Option.isSome_iff_exists.mp stays
  exact ⟨last, history, ran,
    answers_like_a_map zeroHeap guardedCalls (by decide +kernel) last history ran⟩

/-- The second key put becomes the second anchor; `update` then looks for it in the
first node. -/
def refusedCalls : List LocalCall :=
  [.put (.fill 97) (.fill 1), .put (.fill 98) (.fill 2), .update (.fill 98) (.fill 3)]

theorem update_of_second_anchor_refused :
    ¬ ∀ heap calls last history, (initial heap).calls calls = some (last, history) →
      History.IsMap history := by
  intro isMap
  have answers : ((initial zeroHeap).calls refusedCalls).map Prod.snd =
      some [(.put (.fill 97) (.fill 1), .done true), (.put (.fill 98) (.fill 2), .done true),
        (.update (.fill 98) (.fill 3), .done false)] := by decide +kernel
  obtain ⟨⟨last, history⟩, ran, rfl⟩ := Option.map_eq_some_iff.mp answers
  obtain ⟨updated, isFalse, reports⟩ :=
    isMap zeroHeap refusedCalls last _ ran [_, _] _ [] rfl
  cases isFalse
  have wasPut : History.WasPut [(.put (.fill 97) (.fill 1), .done true),
      (.put (.fill 98) (.fill 2), .done true)] (.fill 98) :=
    ⟨.fill 2, .done true, by simp⟩
  exact absurd (reports.mpr wasPut) (by decide)

end DiStore.Cluster.LocalStage
