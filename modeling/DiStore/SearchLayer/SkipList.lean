import DiStore.Concurrency.HandoverLocktable
import DiStore.DataLayer.LinkedNode
import DiStore.Library.LinkedChain

/-!
Contract: the skip list of the search layer.

Owns: `SkipListNode`, `SkipList`, `insert`, `calibrate`, `fuzzy_search`, `search`, `remove`,
and the part of `ComputeNode::async_update` that links a new node at the bottom level.

A pointer is the number of a node, in order of creation; node 0 is `head`. Every
`random_level()` draw is an argument. The search loops carry the number of nodes
as their bound, which `SearchLayer.Ordered` shows they never reach.
-/

set_option autoImplicit false

namespace DiStore.SearchLayer

open DiStore.Concurrency DiStore.DataLayer DiStore.Library

abbrev NodeId := Nat

/-- `Constants::MAX_LEVEL`. -/
def maxLevel : Nat := 16

/-- What `random_level()` returns. -/
abbrev Level := { level : Nat // 0 < level ∧ level ≤ maxLevel }

/-- The level of a node that is on the bottom chain only. -/
theorem level_one : 0 < 1 ∧ 1 ≤ maxLevel := by decide

structure SkipListNode where
  anchor : Str
  dataNode : RemotePointer
  type : LinkedNodeType
  ctx : Option ThreadId
  backward : Option NodeId
  forwards : Nat → Option NodeId

/-- `make_skip_node(level, k, r, t)` with the default links. -/
def SkipListNode.makeSkipNode (anchor : Str) (remote : RemotePointer) (type : LinkedNodeType) :
    SkipListNode where
  anchor := anchor
  dataNode := remote
  type := type
  ctx := none
  backward := none
  forwards := fun _ => none

structure SkipList where
  nodes : NodeId → SkipListNode
  /-- number of nodes ever created, `head` included -/
  count : Nat
  currentLevel : Nat

namespace SkipList

abbrev head : NodeId := 0

/-- `SkipList()`, with the data node that `fake_head` gives to `head`. -/
def empty (fakeHead : RemotePointer) : SkipList where
  nodes := fun _ => .makeSkipNode [] fakeHead .typeHead
  count := 1
  currentLevel := 1

variable (slist : SkipList)

def forward (level : Nat) (node : NodeId) : Option NodeId := (slist.nodes node).forwards level

def setNode (node : NodeId) (content : SkipListNode) : SkipList :=
  { slist with nodes := Function.update slist.nodes node content }

def setForward (level : Nat) (node : NodeId) (target : Option NodeId) : SkipList :=
  slist.setNode node
    { slist.nodes node with
      forwards := Function.update (slist.nodes node).forwards level target }

/-- `while (walker->forwards[level] && walker->forwards[level]->anchor < anchor)`. -/
def advance (anchor : Str) (level : Nat) (walker : NodeId) : NodeId :=
  walk (slist.forward level) (fun node => (slist.nodes node).anchor < anchor) slist.count walker

/-- The loop over the levels from `level - 1` down to `bottom`: where it stops, and
the walker it records for each level. -/
def descend (anchor : Str) (bottom : Nat) : Nat → NodeId → (Nat → NodeId) → NodeId × (Nat → NodeId)
  | 0, walker, update => (walker, update)
  | level + 1, walker, update =>
      if level < bottom then (walker, update)
      else
        let walker := slist.advance anchor level walker
        descend anchor bottom level walker (Function.update update level walker)

/-- `update[]` of `insert` and `calibrate`. Levels above `current_level` get `head`;
no level that is read is left at `nullptr`. -/
def predecessors (anchor : Str) (bottom : Nat) : Nat → NodeId :=
  (slist.descend anchor bottom slist.currentLevel head fun _ => head).2

/-- `node->forwards[i] = update[i]->forwards[i]; update[i]->forwards[i] = node`. -/
def linkLevel (update : Nat → NodeId) (node : NodeId) (slist : SkipList) (level : Nat) : SkipList :=
  let next := slist.forward level (update level)
  (slist.setForward level node next).setForward level (update level) (some node)

/-- `make_new_node`: the new node's number, and the list that knows it. -/
def makeNewNode (anchor : Str) (remote : RemotePointer) (type : LinkedNodeType) : NodeId × SkipList :=
  (slist.count,
    { slist.setNode slist.count (.makeSkipNode anchor remote type) with count := slist.count + 1 })

def setBackward (node : NodeId) (target : Option NodeId) : SkipList :=
  slist.setNode node { slist.nodes node with backward := target }

def setDataNode (node : NodeId) (remote : RemotePointer) : SkipList :=
  slist.setNode node { slist.nodes node with dataNode := remote }

def setType (node : NodeId) (type : LinkedNodeType) : SkipList :=
  slist.setNode node { slist.nodes node with type := type }

def setCtx (node : NodeId) (ctx : Option ThreadId) : SkipList :=
  slist.setNode node { slist.nodes node with ctx := ctx }

def insert (anchor : Str) (remote : RemotePointer) (type : LinkedNodeType) (level : Nat) : SkipList :=
  let update := slist.predecessors anchor 0
  let (node, slist) := slist.makeNewNode anchor remote type
  let slist := { slist with currentLevel := max slist.currentLevel level }
  let slist := (List.range level).foldl (linkLevel update node) slist
  let slist := slist.setBackward node (some (update 0))
  match slist.forward 0 node with
  | some next => slist.setBackward next (some node)
  | none => slist

/-- A node linked at the bottom level is linked at its upper levels. -/
def calibrate (node : NodeId) (level : Nat) : SkipList :=
  let update := slist.predecessors (slist.nodes node).anchor 1
  let slist := { slist with currentLevel := max slist.currentLevel level }
  (List.range' 1 (level - 1)).foldl (linkLevel update node) slist

def fuzzySearch (member : Str) : Option NodeId :=
  let walker := (slist.descend member 0 slist.currentLevel head fun _ => head).1
  match slist.forward 0 walker with
  | none => some walker
  | some next =>
      if (slist.nodes next).anchor = member then some next
      else if member < (slist.nodes next).anchor ∧ ¬ member < (slist.nodes walker).anchor then
        some walker
      else none

/-- `search_node`; `search` returns the same. -/
def search (anchor : Str) : Option NodeId :=
  let walker := (slist.descend anchor 0 slist.currentLevel head fun _ => head).1
  match slist.forward 0 walker with
  | none => none
  | some next => if (slist.nodes next).anchor = anchor then some next else none

/-- The loop of `remove` over the levels from the bottom, up to the first one that the node
is not on. -/
def unlinkLevels (update : Nat → NodeId) (node : NodeId) : List Nat → SkipList → SkipList
  | [], slist => slist
  | level :: rest, slist =>
      if slist.forward level (update level) = some node then
        unlinkLevels update node rest (slist.setForward level (update level) (slist.forward level node))
      else slist

/-- `while (current_level > 0 && head->forwards[current_level - 1] == nullptr)`. -/
def lowered : Nat → Nat
  | 0 => 0
  | level + 1 => if slist.forward level head = none then lowered level else level + 1

/-- `remove`. An anchor above all others makes the source read through a null pointer. The
memory of the node is given back, so nothing reads what it still holds here. -/
def remove (anchor : Str) : Bool × SkipList :=
  let (walker, update) := slist.descend anchor 0 slist.currentLevel head fun _ => head
  match slist.forward 0 walker with
  | none => (false, slist)
  | some node =>
      if (slist.nodes node).anchor = anchor then
        let slist := slist.unlinkLevels update node (List.range slist.currentLevel)
        let slist :=
          match slist.forward 0 node with
          | some next => slist.setBackward next (slist.nodes node).backward
          | none => slist
        (true, { slist with currentLevel := slist.lowered slist.currentLevel })
      else (false, slist)

/-- The first stores of `async_update`: the new node is complete up to `backward`
and linked behind `dataNode` at the bottom level. -/
def publishBehind (dataNode : NodeId) (anchor : Str) (type : LinkedNodeType) (remote : RemotePointer) :
    NodeId × SkipList :=
  let next := slist.forward 0 dataNode
  let (node, slist) := slist.makeNewNode anchor remote type
  let slist := slist.setForward 0 node next
  (node, slist.setForward 0 dataNode (some node))

/-- All stores of `async_update` to the list. -/
def linkBehind (dataNode : NodeId) (anchor : Str) (type : LinkedNodeType) (remote : RemotePointer) :
    NodeId × SkipList :=
  let (node, slist) := slist.publishBehind dataNode anchor type remote
  (node, slist.setBackward node (some dataNode))

end SkipList

end DiStore.SearchLayer
