import Armor.Cross.Fp
import Armor.Lib.BitStream
import Armor.Lib.Memory
import Mathlib.Data.UInt

/-! Packing and unpacking of 7-bit and 9-bit elements: `pack_unpack.c`. Eight elements fill a group
of 7 or 9 bytes; a partial group at the end stops at the byte that holds its last bit. -/
namespace Armor.Cross

def elements {α : Type} [Zero α] {n : Nat} (v : Vector α n) (i : Nat) : α := if h : i < n then v[i] else 0

/-- Byte `k` of a group. In the branches for a partial group the second term is missing where its
element does, which is zero here. -/
def packed7 (v : Nat → FzElem) (a : Nat) : UInt8 :=
  let i := a / 7
  let k := a % 7
  (v (i * 8 + k) >>> k.toUInt8) ||| (v (i * 8 + k + 1) <<< (7 - k).toUInt8)

def packed9 (v : Nat → FpElem) (a : Nat) : UInt8 :=
  let i := a / 9
  let k := a % 9
  if k = 0 then (v (i * 8)).toUInt8
  else if k = 8 then (v (i * 8 + 7) >>> 1).toUInt8
  else ((v (i * 8 + k - 1) >>> (9 - k).toUInt16) ||| (v (i * 8 + k) <<< k.toUInt16)).toUInt8

def genericPack7Bit {inlen : Nat} (outlen : Nat) (v : FzVec inlen) : Block outlen :=
  Vector.ofFn fun a => packed7 (elements v) a

def genericPack9Bit {inlen : Nat} (outlen : Nat) (v : FpVec inlen) : Block outlen :=
  Vector.ofFn fun a => packed9 (elements v) a

def unpacked7 (b : Mem) (a : Nat) : FzElem :=
  let i := a / 8
  let j := a % 8
  if j = 0 then b (i * 7) &&& 0x7F
  else if j = 7 then b (i * 7 + 6) >>> 1
  else (b (i * 7 + j - 1) >>> (8 - j).toUInt8) ||| ((b (i * 7 + j) <<< j.toUInt8) &&& 0x7F)

def unpacked9 (b : Mem) (a : Nat) : FpElem :=
  let i := a / 8
  let j := a % 8
  (((b (i * 9 + j)).toUInt16 >>> j.toUInt16) ||| ((b (i * 9 + j + 1)).toUInt16 <<< (8 - j).toUInt16)) &&& 0x1FF

/-- `in[inlen - 1] & (0xFF << used) == 0`, where `used` bits of the last byte are taken. -/
def paddingOk (b : Mem) (inlen used : Nat) : Bool := b (inlen - 1) &&& ((0xFF : UInt8) <<< used.toUInt8) == 0

def genericUnpack7Bit {inlen : Nat} (outlen : Nat) (b : Block inlen) : FzVec outlen × Bool :=
  let nRemainder := outlen % 8
  (Vector.ofFn fun a => unpacked7 (Mem.ofBlock b) a,
    if nRemainder > 0 then paddingOk (Mem.ofBlock b) inlen (8 - nRemainder) else true)

def genericUnpack9Bit {inlen : Nat} (outlen : Nat) (b : Block inlen) : FpVec outlen × Bool :=
  let nRemainder := outlen % 8
  (Vector.ofFn fun a => unpacked9 (Mem.ofBlock b) a,
    if nRemainder > 0 then paddingOk (Mem.ofBlock b) inlen nRemainder else true)

variable (p : Parameters)

def packFpVec (v : FpVec p.n) : Block p.denselyPackedFpVecSize := genericPack9Bit _ v
def packFpSyn (v : FpVec (p.n - p.k)) : Block p.denselyPackedFpSynSize := genericPack9Bit _ v
def packFzRsdpGVec (v : FzVec p.m) : Block p.denselyPackedFzRsdpGVecSize := genericPack7Bit _ v
def unpackFpVec (b : Block p.denselyPackedFpVecSize) : FpVec p.n × Bool := genericUnpack9Bit p.n b
def unpackFpSyn (b : Block p.denselyPackedFpSynSize) : FpVec (p.n - p.k) × Bool := genericUnpack9Bit (p.n - p.k) b
def unpackFzRsdpGVec (b : Block p.denselyPackedFzRsdpGVecSize) : FzVec p.m × Bool := genericUnpack7Bit p.m b

end Armor.Cross
