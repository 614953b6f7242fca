import DiStore.DataLayer.LinkedNode

/-!
Contract: the concrete digests of the source, for runs on concrete inputs.

Owns: `CityHash64` on the lengths a key can have (the `HashLen0to16` path) and
the CRC that `crc_validate` configures (16 bits, polynomial `0x1021`, initial
value `0xFFFF`, no reflection, no final xor).

Does not own: any law of these functions. Theorems are stated over an arbitrary
`Digest`.
-/

set_option autoImplicit false

namespace DiStore.Digests

/-- `UNALIGNED_LOAD64` on a little-endian machine, from the bytes at an address. -/
def fetch64 (bytes : List UInt8) : UInt64 :=
  UInt64.ofNat ((bytes.take 8).foldr (fun byte rest => byte.toNat + 256 * rest) 0)

def fetch32 (bytes : List UInt8) : UInt64 :=
  UInt64.ofNat ((bytes.take 4).foldr (fun byte rest => byte.toNat + 256 * rest) 0)

def k2 : UInt64 := 0x9ae16a3b2f90404f

def k3 : UInt64 := 0xc949d7c7509e6557

def hash128to64 (low high : UInt64) : UInt64 :=
  let kMul : UInt64 := 0x9ddfea08eb382d69
  let a := (low ^^^ high) * kMul
  let a := a ^^^ (a >>> 47)
  let b := (high ^^^ a) * kMul
  let b := b ^^^ (b >>> 47)
  b * kMul

def rotateByAtLeast1 (val shift : UInt64) : UInt64 :=
  (val >>> shift) ||| (val <<< (64 - shift))

def shiftMix (val : UInt64) : UInt64 := val ^^^ (val >>> 47)

/-- `HashLen0to16`. -/
def hashLen0to16 (text : Str) : UInt64 :=
  let length := UInt64.ofNat text.length
  if 8 < text.length then
    let a := fetch64 text
    let b := fetch64 (text.drop (text.length - 8))
    hash128to64 a (rotateByAtLeast1 (b + length) length) ^^^ b
  else if 4 ≤ text.length then
    let a := fetch32 text
    hash128to64 (length + (a <<< 3)) (fetch32 (text.drop (text.length - 4)))
  else if 0 < text.length then
    let a := (text.getD 0 0).toUInt32
    let b := (text.getD (text.length / 2) 0).toUInt32
    let c := (text.getD (text.length - 1) 0).toUInt32
    let y := a + (b <<< 8)
    let z := UInt32.ofNat text.length + (c <<< 2)
    shiftMix (y.toUInt64 * k2 ^^^ z.toUInt64 * k3) * k2
  else
    k2

/-- One bit of the division by `x^16 + x^12 + x^5 + 1`. -/
def crcBit (crc : Nat) : Nat :=
  bif crc.testBit 15 then (crc * 2) % 65536 ^^^ 0x1021 else (crc * 2) % 65536

def crcBits : Nat → Nat → Nat
  | 0, crc => crc
  | count + 1, crc => crcBits count (crcBit crc)

def crcByte (crc : Nat) (byte : UInt8) : Nat := crcBits 8 (crc ^^^ byte.toNat * 256)

/-- `boost::crc_optimal<16, 0x1021, 0xFFFF, 0, false, false>` over all bytes. -/
def crcCcitt (bytes : List UInt8) : UInt16 := UInt16.ofNat (bytes.foldl crcByte 0xFFFF)

/-- The digests the source links against. Keys have at most sixteen bytes, so the
paths of `CityHash64` for longer texts are not reproduced. -/
@[reducible]
def source : Digest where
  cityHash64 := hashLen0to16
  crc16 := crcCcitt

end DiStore.Digests
