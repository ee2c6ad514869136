import Armor.Cross.Fz

/-! Arithmetic modulo `P = 509` and the restricted subgroup: `fp_arith.h` in its portable and
its SVE2 version. -/
namespace Armor.Cross

abbrev FpElem := UInt16
abbrev FpVec (n : Nat) := Vector FpElem n

/-- `FPRED_SINGLE`, evaluated in `uint64_t` whatever the type of its argument. -/
def fpredSingle (x : UInt64) : UInt64 := x - ((x * 2160140723) >>> 40) * 509
def fpredDouble (x : UInt32) : FpElem := (fpredSingle x.toUInt64).toUInt16
def fpredOpposite (x : FpElem) : UInt64 := fpredSingle (509 - x.toUInt64)
def fpDoubleZeroNorm (x : FpElem) : FpElem := x

def fpDzNorm {n : Nat} (v : FpVec n) : FpVec n := v.map fpDoubleZeroNorm

def fpElemCmov (bit trueV falseV : FpElem) : FpElem :=
  ((0 - bit) &&& trueV) ||| (~~~(0 - bit) &&& falseV)

def restrToVal (x : FpElem) : FpElem :=
  let power (shift : UInt16) (square : FpElem) : UInt32 :=
    (fpElemCmov ((x >>> shift) &&& 1) square 1).toUInt32
  let res1 := power 0 16 * power 1 256
  let res2 := power 2 384 * power 3 355
  let res3 := power 4 302 * power 5 93
  let res4 := power 6 505
  (fpredSingle (fpredSingle (res1 * res2).toUInt64 * fpredSingle (res3 * res4).toUInt64)).toUInt16

variable {k n : Nat}

def convertRestrVecToFp (v : FzVec n) : FpVec n := v.map fun x => restrToVal x.toUInt16

def fpVecByFpVecPointwise (in1 in2 : FpVec n) : FpVec n :=
  Vector.ofFn fun i => fpredDouble (in1[i].toUInt32 * in2[i].toUInt32)

def fpVecByRestrVecScaled (e : FzVec n) (chall1 : FpElem) (uPrime : FpVec n) : FpVec n :=
  Vector.ofFn fun i =>
    fpredDouble (uPrime[i].toUInt32 + (restrToVal e[i].toUInt16).toUInt32 * chall1.toUInt32)

def fpSyndMinusFpVecScaled (synd : FpVec n) (chall1 : FpElem) (s : FpVec n) : FpVec n :=
  Vector.ofFn fun j =>
    let tmp := fpDoubleZeroNorm (fpredDouble (s[j].toUInt32 * chall1.toUInt32))
    (fpredSingle (synd[j].toUInt64 + fpredOpposite tmp)).toUInt16

theorem restInside (inside : k ≤ n) (j : Fin (n - k)) : k + j.val < n := by omega

namespace Portable

def addRows (inside : k ≤ n) (e : FpVec n) (vTr : Matrix FpElem k (n - k)) : FpVec (n - k) :=
  Loop.upToFin k (fun i res => Vector.ofFn fun j =>
    fpredDouble (res[j].toUInt32 + (e.get (i.castLE inside)).toUInt32 * vTr[i][j].toUInt32))
    (Vector.ofFn fun j => getElem e (k + j.val) (restInside inside j))

def restrVecByFpMatrix (inside : k ≤ n) (e : FzVec n) (vTr : Matrix FpElem k (n - k)) : FpVec (n - k) :=
  addRows inside (convertRestrVecToFp e) vTr

def fpVecByFpMatrix (inside : k ≤ n) (e : FpVec n) (vTr : Matrix FpElem k (n - k)) : FpVec (n - k) :=
  addRows inside e vTr

end Portable

namespace Sve2

def tableRestrToVal : Vector FpElem 254 :=
  let powers : Vector FpElem 127 := #v[
    1, 16, 256, 24, 384, 36, 67, 54, 355, 81, 278, 376, 417, 55, 371, 337,
    302, 251, 453, 122, 425, 183, 383, 20, 320, 30, 480, 45, 211, 322, 62, 483,
    93, 470, 394, 196, 82, 294, 123, 441, 439, 407, 404, 356, 97, 25, 400, 292,
    91, 438, 391, 148, 332, 222, 498, 333, 238, 245, 357, 113, 281, 424, 167, 127,
    505, 445, 503, 413, 500, 365, 241, 293, 107, 185, 415, 23, 368, 289, 43, 179,
    319, 14, 224, 21, 336, 286, 504, 429, 247, 389, 116, 329, 174, 239, 261, 104,
    137, 156, 460, 234, 181, 351, 17, 272, 280, 408, 420, 103, 121, 409, 436, 359,
    145, 284, 472, 426, 199, 130, 44, 195, 66, 38, 99, 57, 403, 340, 350]
  powers ++ powers

def fpredMersenne (x : UInt32) : UInt32 := (x &&& (0x1FF : UInt32)) + (x >>> 9) * 3

/-- One lane of `sv_barrett_store`: two Mersenne steps, one Barrett step, a 16-bit store. -/
def svBarrettStore (acc : UInt32) : FpElem :=
  let acc := fpredMersenne (fpredMersenne acc)
  let q := (acc * 16481) >>> 23
  (acc - q * 509).toUInt16

def addRows (length : VectorLength) (inside : k ≤ n) (e : Vector UInt32 n)
    (vTr : Matrix FpElem k (n - k)) : FpVec (n - k) :=
  Batch.lanes length.svcntw (n - k) (fun j => svBarrettStore
    (Loop.upToFin k (fun i acc => acc + vTr[i][j].toUInt32 * e.get (i.castLE inside))
      (getElem e (k + j.val) (restInside inside j))))
    (Vector.replicate _ 0)

def restrVecByFpMatrix (length : VectorLength) (inside : k ≤ n) (e : FzVec n)
    (vTr : Matrix FpElem k (n - k)) : FpVec (n - k) :=
  addRows length inside (e.map fun x => (tableRestrToVal.getD x.toNat 0).toUInt32) vTr

def fpVecByFpMatrix (length : VectorLength) (inside : k ≤ n) (u : FpVec n)
    (vTr : Matrix FpElem k (n - k)) : FpVec (n - k) :=
  addRows length inside (u.map UInt16.toUInt32) vTr

end Sve2
end Armor.Cross
