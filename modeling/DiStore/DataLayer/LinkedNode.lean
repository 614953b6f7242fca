import DiStore.Common.Bytes
import Mathlib.Logic.Function.Basic

/-!
Contract: the data-layer node and the operations the source defines on it.

Owns: `KV`, `LinkedNode`, `store`, `find`, `update`, `sizeof_node`,
`crc_validate`, and the byte-exact effect of copying a prefix of one node image
over another.

The source instantiates one template: `LinkedNode<16, 10/12/14/16>` share one
layout up to the length of `pairs`, and the store casts freely between them.
They are one structure here, and the capacity `N` that `available()` tests is an
argument of `store`. An array is a function of its index, so reading past a
smaller node reads what the larger view of the same memory holds.
-/

set_option autoImplicit false

namespace DiStore

/-- The two digests the store computes over bytes. `CityHash64` is vendored and
`boost::crc_optimal` is third party; nothing below depends on which functions
they are. -/
class Digest where
  cityHash64 : Str → UInt64
  crc16 : List UInt8 → UInt16

/-- The address half of a `RemotePointer`. One memory node serves the store, so
the node tag carries no information; `0` is `nullptr`. -/
abbrev RemotePointer := Nat

abbrev nullptr : RemotePointer := 0

namespace DataLayer

/-- `LinkedNodeType`. A tag read from memory that is none of these behaves as
`notSet` in every `switch` of the source. -/
inductive LinkedNodeType where
  | typeHead
  | type10
  | type12
  | type14
  | type16
  | typeVar
  | notSet
deriving DecidableEq, Repr

/-- Number of pairs in the node type a tag names. -/
def LinkedNodeType.capacity : LinkedNodeType → Nat
  | .typeHead => 1
  | .type10 => 10
  | .type12 => 12
  | .type14 => 14
  | .type16 => 16
  | .typeVar => 0
  | .notSet => 0

structure KV where
  key : Bytes16
  value : Bytes16
deriving DecidableEq, Inhabited

def KV.bytes (pair : KV) : List UInt8 := pair.key.val ++ pair.value.val

/-- The first `count` bytes of `source` over those of `target`. -/
def KV.overlay (count : Nat) (source target : KV) : KV :=
  if 32 ≤ count then source
  else if count = 0 then target
  else ⟨source.key.overlay count target.key, source.value.overlay (count - 16) target.value⟩

structure LinkedNode where
  llink : RemotePointer
  rlink : RemotePointer
  crc : UInt16
  type : LinkedNodeType
  /-- next writable slot -/
  next : Nat
  fingerprints : Nat → UInt8
  pairs : Nat → KV

/-- `LinkedNode()`: links cleared, fingerprints zeroed; the source leaves `crc`
and `pairs` as they are in memory. -/
def LinkedNode.fresh (type : LinkedNodeType) (memory : LinkedNode) : LinkedNode :=
  { memory with
    llink := nullptr
    rlink := nullptr
    type := type
    next := 0
    fingerprints := fun _ => 0 }

/-- A node image of zeroed memory. -/
def LinkedNode.zeroed : LinkedNode where
  llink := nullptr
  rlink := nullptr
  crc := 0
  type := .notSet
  next := 0
  fingerprints := fun _ => 0
  pairs := fun _ => default

instance : Inhabited LinkedNode := ⟨LinkedNode.zeroed⟩

section Operations

variable [Digest]

/-- `(uint8_t)CityHash64(key.c_str(), key.size())`. -/
def fingerprint (key : Str) : UInt8 := (Digest.cityHash64 key).toUInt8

namespace LinkedNode

variable (node : LinkedNode)

/-- Slot `index` passes the fingerprint filter and
`key.compare(0, key.size(), pairs[index].key, key.size()) == 0`. -/
def matchesAt (key : Str) (index : Nat) : Bool :=
  node.fingerprints index == fingerprint key &&
    key == (node.pairs index).key.val.take key.length

/-- The slot at which the common loop of `find` and `update` stops. -/
def findIndex (key : Str) : Option Nat :=
  (List.range node.next).find? (node.matchesAt key)

def find (key : Str) : Option Bytes16 :=
  (node.findIndex key).map fun index => (node.pairs index).value

/-- The record that `store` writes at `next`. -/
def append (key value : Str) : LinkedNode :=
  { node with
    fingerprints := Function.update node.fingerprints node.next (fingerprint key)
    pairs := Function.update node.pairs node.next
      ⟨Bytes16.memcpy key (node.pairs node.next).key,
        Bytes16.memcpy value (node.pairs node.next).value⟩
    next := node.next + 1 }

/-- `store` of a node type with `capacity` pairs; uninsert, not upsert. -/
def store (capacity : Nat) (key value : Str) : Bool × LinkedNode :=
  if node.next < capacity then
    if (node.find key).isSome then (true, node) else (true, node.append key value)
  else
    (false, node)

def update (key value : Str) : Bool × LinkedNode :=
  match node.findIndex key with
  | some index =>
      (true, { node with
        pairs := Function.update node.pairs index
          { node.pairs index with value := Bytes16.memcpy value (node.pairs index).value } })
  | none => (false, node)

end LinkedNode

/-- Bytes of the first `count` pairs. -/
def LinkedNode.pairBytes (node : LinkedNode) (count : Nat) : List UInt8 :=
  (List.range count).flatMap fun index => (node.pairs index).bytes

/-- `crc_validate`: the checksum over the pairs that `type` covers. -/
def crcValidate (buffer : LinkedNode) (type : LinkedNodeType) : UInt16 :=
  match type with
  | .type10 => Digest.crc16 (buffer.pairBytes 10)
  | .type12 => Digest.crc16 (buffer.pairBytes 12)
  | .type14 => Digest.crc16 (buffer.pairBytes 14)
  | .type16 => Digest.crc16 (buffer.pairBytes 16)
  | _ => 0

end Operations

/-- Offset of `pairs` in `LinkedNode<16, N>`. -/
def pairsOffset : Nat := 44

/-- `sizeof(LinkedNode<M, N>)`: 28 header bytes, `M` fingerprints, `N` pairs,
rounded up to the alignment of a pointer. -/
def sizeofLinkedNode (fingerprints pairs : Nat) : Nat :=
  (28 + fingerprints + 32 * pairs + 7) / 8 * 8

/-- `sizeof_node`. -/
def sizeofNode : LinkedNodeType → Nat
  | .typeHead => sizeofLinkedNode 1 1
  | .type10 => sizeofLinkedNode 16 10
  | .type12 => sizeofLinkedNode 16 12
  | .type14 => sizeofLinkedNode 16 14
  | .type16 => sizeofLinkedNode 16 16
  | _ => 0

example : [LinkedNodeType.type10, .type12, .type14, .type16].map sizeofNode = [368, 432, 496, 560] :=
  rfl

/-- The first `size` bytes of `source` over those of `target`. Every transfer the
source posts is empty or covers the whole header. -/
def LinkedNode.overlay (size : Nat) (source target : LinkedNode) : LinkedNode :=
  if size = 0 then target
  else
    { source with
      pairs := fun index =>
        KV.overlay (size - (pairsOffset + 32 * index)) (source.pairs index) (target.pairs index) }

end DataLayer

end DiStore
