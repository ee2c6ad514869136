import Armor.Cross.Parameters
import Armor.Lib.Batch

/-! Exponents modulo `Z = 127` with a redundant zero: `restr_arith.h` in its portable and its
SVE2 version. A C `int` that never gets negative is a `UInt32`. -/
namespace Armor.Cross

abbrev FzElem := UInt8
abbrev FzVec (n : Nat) := Vector FzElem n
abbrev Matrix (α : Type) (rows cols : Nat) := Vector (Vector α cols) rows

/-- A vector length of the SVE unit, a positive multiple of 128 bits. -/
structure VectorLength where
  granules : Nat
  positive : 0 < granules

namespace VectorLength

variable (length : VectorLength)

def svcntw : Nat := 4 * length.granules
def svcnth : Nat := 8 * length.granules

theorem svcntwPositive : 0 < length.svcntw := Nat.mul_pos (by decide) length.positive
theorem svcnthPositive : 0 < length.svcnth := Nat.mul_pos (by decide) length.positive

end VectorLength

def fzredSingle (x : UInt32) : UInt32 := (x &&& (0x7f : UInt32)) + (x >>> 7)
def fzredDouble (x : UInt32) : UInt32 := fzredSingle (fzredSingle x)
def fzredOpposite (x : FzElem) : UInt32 := x.toUInt32 ^^^ 0x7f
def fzDoubleZeroNorm (x : FzElem) : FzElem :=
  ((x.toUInt32 + ((x.toUInt32 + 1) >>> 7)) &&& 0x7f).toUInt8

def fzDzNorm {n : Nat} (v : FzVec n) : FzVec n := v.map fzDoubleZeroNorm

def fzVecSub {n : Nat} (a b : FzVec n) : FzVec n :=
  Vector.ofFn fun i => (fzredSingle (a[i].toUInt32 + fzredOpposite b[i])).toUInt8

def isFzVecInRestrGroupM {m : Nat} (v : FzVec m) : Bool :=
  Loop.upToFin m (fun i isInOk => isInOk && decide (v[i].toNat < Z)) true

variable {m n : Nat}

theorem tailInside {i : Fin n} (h : ¬ i.val < n - m) : i.val - (n - m) < m := by omega

def systematic (product : FzVec (n - m)) (e : FzVec m) : FzVec n :=
  Vector.ofFn fun i => if h : i.val < n - m then product[i.val] else getElem e (i.val - (n - m)) (tailInside h)

def Portable.fzInfWByFzMatrix (e : FzVec m) (wMat : Matrix FzElem m (n - m)) : FzVec n :=
  systematic (Loop.upToFin m (fun i res => Vector.ofFn fun j =>
    (fzredDouble (res[j].toUInt32 + e[i].toUInt32 * wMat[i][j].toUInt32)).toUInt8)
    (Vector.replicate _ 0)) e

namespace Sve2

def svFzredSingle (x : UInt16) : UInt16 := (x &&& (0x7f : UInt16)) + (x >>> 7)
def svFzredDouble (x : UInt16) : UInt16 := svFzredSingle (svFzredSingle x)

def fzAccumulate (e : FzVec m) (wMat : Matrix FzElem m (n - m)) (j : Fin (n - m)) : UInt16 :=
  Loop.upToFin m (fun i acc =>
    let acc := acc + wMat[i][j].toUInt16 * e[i].toUInt16
    if i.val &&& 3 = 3 then svFzredSingle acc else acc) 0

def fzInfWByFzMatrix (length : VectorLength) (e : FzVec m) (wMat : Matrix FzElem m (n - m)) : FzVec n :=
  systematic (Batch.lanes length.svcnth (n - m)
    (fun j => (svFzredDouble (fzAccumulate e wMat j)).toUInt8) (Vector.replicate _ 0)) e

end Sve2
end Armor.Cross
