import DiStore.Common.Bytes
import DiStore.Library.ByteOrder

/-!
Contract: connection certificates and the contexts that exchange them.

Owns: `connection_certificate` in both byte orders and as bytes, `RDMAContext` with the state of its
queue pair, the two halves of `exchange_certificate`, `default_get_qp_ready`, and the address and key
that `post_send_helper` puts into a request.

Does not own: when the halves of an exchange run (`RDMAUtil.Handshake`). The verbs library is what its
calls return: a queue pair moves when `ibv_modify_qp` returns zero.
-/

set_option autoImplicit false

namespace DiStore.RDMAUtil

open DiStore.Library

/-- `connection_certificate`. -/
structure ConnectionCertificate where
  addr : BitVec 64
  rkey : BitVec 32
  qpNum : BitVec 32
  lid : BitVec 16
  gid : Bytes16
deriving DecidableEq

/-- `sizeof(connection_certificate)`: the struct is packed. -/
def certificateSize : Nat := 34

/-- `htonll` and `ntohll`, `htonl` and `ntohl`, `htons` and `ntohs` of a little-endian host. -/
def htonll (word : BitVec 64) : BitVec 64 := byteSwap word

def htonl (word : BitVec 32) : BitVec 32 := byteSwap word

def htons (word : BitVec 16) : BitVec 16 := byteSwap word

namespace ConnectionCertificate

variable (certificate : ConnectionCertificate)

/-- `tmp` before it is written. -/
def toNetwork : ConnectionCertificate where
  addr := htonll certificate.addr
  rkey := htonl certificate.rkey
  qpNum := htonl certificate.qpNum
  lid := htons certificate.lid
  gid := certificate.gid

/-- `remote`, for what was read into `tmp`. -/
def ofNetwork (tmp : ConnectionCertificate) : ConnectionCertificate where
  addr := htonll tmp.addr
  rkey := htonl tmp.rkey
  qpNum := htonl tmp.qpNum
  lid := htons tmp.lid
  gid := tmp.gid

/-- The struct in memory. -/
def image : Str :=
  littleBytes 8 certificate.addr.toNat ++ (littleBytes 4 certificate.rkey.toNat ++
    (littleBytes 4 certificate.qpNum.toNat ++ (littleBytes 2 certificate.lid.toNat ++ certificate.gid.val)))

/-- The struct whose memory is `bytes`. -/
def ofImage (bytes : Str) (isWhole : bytes.length = certificateSize) : ConnectionCertificate where
  addr := BitVec.ofNat 64 (ofLittle (bytes.take 8))
  rkey := BitVec.ofNat 32 (ofLittle ((bytes.drop 8).take 4))
  qpNum := BitVec.ofNat 32 (ofLittle ((bytes.drop 12).take 4))
  lid := BitVec.ofNat 16 (ofLittle ((bytes.drop 16).take 2))
  gid := ⟨bytes.drop 18, by rw [List.length_drop, isWhole]; decide⟩

theorem length_image : certificate.image.length = certificateSize := by
  have gid := certificate.gid.property
  unfold image
  simp only [List.length_append, length_littleBytes, gid]
  decide

theorem ofImage_image : ofImage certificate.image certificate.length_image = certificate := by
  obtain ⟨addr, rkey, qpNum, lid, gid⟩ := certificate
  have dropFirst : ∀ first rest : Str, ∀ size, first.length = size → (first ++ rest).drop size = rest := by
    intro first rest size isSize
    rw [← isSize, List.drop_left]
  have takeFirst : ∀ first rest : Str, ∀ size, first.length = size → (first ++ rest).take size = first := by
    intro first rest size isSize
    rw [← isSize, List.take_left]
  have behindAddr : (image ⟨addr, rkey, qpNum, lid, gid⟩).drop 8 = _ :=
    dropFirst (littleBytes 8 addr.toNat) _ 8 (length_littleBytes _ _)
  have behindRkey := dropFirst (littleBytes 4 rkey.toNat)
    (littleBytes 4 qpNum.toNat ++ (littleBytes 2 lid.toNat ++ gid.val)) 4 (length_littleBytes _ _)
  have behindQpNum := dropFirst (littleBytes 4 qpNum.toNat) (littleBytes 2 lid.toNat ++ gid.val) 4
    (length_littleBytes _ _)
  have behindLid := dropFirst (littleBytes 2 lid.toNat) gid.val 2 (length_littleBytes _ _)
  rw [← behindAddr, List.drop_drop] at behindRkey
  rw [← behindRkey, List.drop_drop] at behindQpNum
  rw [← behindQpNum, List.drop_drop] at behindLid
  unfold ofImage
  simp only [mk.injEq]
  refine ⟨?_, ?_, ?_, ?_, Subtype.ext behindLid⟩
  · have bytes : (image ⟨addr, rkey, qpNum, lid, gid⟩).take 8 = littleBytes 8 addr.toNat :=
      takeFirst _ _ 8 (length_littleBytes _ _)
    rw [bytes]
    exact ofNat_ofLittle_littleBytes (by decide) addr
  · rw [behindAddr, takeFirst _ _ 4 (length_littleBytes _ _)]
    exact ofNat_ofLittle_littleBytes (by decide) rkey
  · rw [behindRkey, takeFirst _ _ 4 (length_littleBytes _ _)]
    exact ofNat_ofLittle_littleBytes (by decide) qpNum
  · rw [behindQpNum, takeFirst _ _ 2 (length_littleBytes _ _)]
    exact ofNat_ofLittle_littleBytes (by decide) lid

@[simp] theorem ofNetwork_toNetwork : certificate.toNetwork.ofNetwork = certificate := by
  obtain ⟨addr, rkey, qpNum, lid, gid⟩ := certificate
  unfold toNetwork ofNetwork htonll htonl htons
  simp

end ConnectionCertificate

/-! ### Queue pairs -/

/-- The fields of `get_default_qp_rtr_attr` that name the peer. -/
structure PeerAddress where
  destQpNum : BitVec 32
  dlid : BitVec 16
  dgid : Option Bytes16
deriving DecidableEq

/-- `get_default_qp_rtr_attr`: without a GID index there is no global route. -/
def PeerAddress.ofCertificate (remote : ConnectionCertificate) (gidIdx : Int) : PeerAddress where
  destQpNum := remote.qpNum
  dlid := remote.lid
  dgid := if 0 ≤ gidIdx then some remote.gid else none

/-- The state of a queue pair, and whom it is connected to. -/
inductive QueuePair where
  | reset
  | init
  | readyToReceive (peer : PeerAddress)
  | readyToSend (peer : PeerAddress)
deriving DecidableEq

/-- `RDMAContext`; `gidIdx` is that of its device. -/
structure RDMAContext where
  localCertificate : ConnectionCertificate
  remote : ConnectionCertificate
  qp : QueuePair
  gidIdx : Int
deriving DecidableEq

/-- The statuses of an exchange. -/
inductive Status where
  | ok
  | readError
  | writeError
deriving DecidableEq

namespace RDMAContext

variable (context : RDMAContext)

/-- The contents of a zeroed context. -/
def zeroCertificate : ConnectionCertificate := ⟨0, 0, 0, 0, .fill 0⟩

/-- `RDMADevice::open`: the certificate has the address that was registered, and the rest from the
library. -/
def opened (certificate : ConnectionCertificate) (gidIdx : Int) : RDMAContext :=
  ⟨certificate, zeroCertificate, .reset, gidIdx⟩

/-- What `exchange_certificate` writes. -/
def toWrite : Str := context.localCertificate.toNetwork.image

/-- `write`, for the number of bytes it took. -/
def writeStatus (taken : Nat) : Status := if taken = certificateSize then .ok else .writeError

/-- `read`, for the bytes it brought; an error brings none. -/
def readCertificate (received : Str) : Status × RDMAContext :=
  if isWhole : received.length = certificateSize then
    (.ok, { context with remote := (ConnectionCertificate.ofImage received isWhole).ofNetwork })
  else (.readError, context)

/-- `default_get_qp_ready`, for what the three calls of `ibv_modify_qp` return. -/
def defaultGetQpReady (toInit toRtr toRts : Int) : Int × RDMAContext :=
  let peer := PeerAddress.ofCertificate context.remote context.gidIdx
  if toInit ≠ 0 then (toInit, context)
  else if toRtr ≠ 0 then (toRtr, { context with qp := .init })
  else if toRts ≠ 0 then (toRts, { context with qp := .readyToReceive peer })
  else (0, { context with qp := .readyToSend peer })

/-- The remote side of a request. -/
structure WorkRequest where
  remoteAddr : BitVec 64
  rkey : BitVec 32
deriving DecidableEq

/-- `post_send_helper` at an offset of the registered memory, for a read or a write. -/
def postAtOffset (remoteOffset : BitVec 64) : WorkRequest :=
  ⟨context.remote.addr + remoteOffset, context.remote.rkey⟩

/-- `post_send_helper` at an address. -/
def postAt (ptr : BitVec 64) : WorkRequest := context.postAtOffset (ptr - context.remote.addr)

/-- The address is posted as it is, wherever the registered memory is. -/
theorem postAt_eq (ptr : BitVec 64) : context.postAt ptr = ⟨ptr, context.remote.rkey⟩ := by
  unfold postAt postAtOffset
  rw [BitVec.add_comm, BitVec.sub_add_cancel]

variable {context} {peer : RDMAContext}

/-- **What one side writes, the other reads.** -/
theorem readCertificate_toWrite :
    context.readCertificate peer.toWrite = (.ok, { context with remote := peer.localCertificate }) := by
  unfold readCertificate toWrite
  rw [dif_pos (ConnectionCertificate.length_image _), ConnectionCertificate.ofImage_image,
    ConnectionCertificate.ofNetwork_toNetwork]

theorem length_toWrite : context.toWrite.length = certificateSize := ConnectionCertificate.length_image _

end RDMAContext

end DiStore.RDMAUtil
