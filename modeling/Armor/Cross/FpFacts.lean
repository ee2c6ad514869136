import Armor.Cross.Fp
import Armor.Cross.FzFacts
import Mathlib.Data.ZMod.Basic

/-! What the operations modulo 509 compute. Every result is the least residue, so the portable
sums, reduced at every row, and the lazy SVE2 sums, reduced once, are the same numbers. -/
namespace Armor.Cross

theorem fpredSingleNat {x : UInt64} (small : x.toNat < 2 ^ 32) :
    (fpredSingle x).toNat = x.toNat % 509 := by
  have whole : (x * 2160140723).toNat = x.toNat * 2160140723 := by
    rw [UInt64.toNat_mul]
    exact Nat.mod_eq_of_lt (show x.toNat * 2160140723 < 2 ^ 64 by omega)
  have quotient : ((x * 2160140723) >>> 40).toNat = x.toNat / 509 := by
    change (x * 2160140723).toNat >>> 40 = _
    rw [whole, Nat.shiftRight_eq_div_pow]
    omega
  have product : (((x * 2160140723) >>> 40) * 509).toNat = x.toNat / 509 * 509 := by
    rw [UInt64.toNat_mul, quotient]
    change x.toNat / 509 * 509 % 2 ^ 64 = _
    omega
  rw [fpredSingle, UInt64.toNat_sub, product]
  omega

theorem fpredDoubleNat (x : UInt32) : (fpredDouble x).toNat = x.toNat % 509 := by
  have single := fpredSingleNat (x := x.toUInt64) x.toNat_lt
  have store : ∀ y : UInt64, y.toUInt16.toNat = y.toNat % 2 ^ 16 := fun _ => rfl
  rw [fpredDouble, store, single, UInt32.toNat_toUInt64]
  omega

theorem fpredMersenneNat {x : UInt32} (small : x.toNat < 2 ^ 25) :
    (Sve2.fpredMersenne x).toNat = x.toNat % 512 + x.toNat / 512 * 3 := by
  have mask : (x &&& 0x1FF).toNat = x.toNat % 512 := Nat.and_two_pow_sub_one_eq_mod x.toNat 9
  have shift : (x >>> 9).toNat = x.toNat / 512 := Nat.shiftRight_eq_div_pow x.toNat 9
  rw [Sve2.fpredMersenne, UInt32.toNat_add, UInt32.toNat_mul, mask, shift]
  change (x.toNat % 512 + x.toNat / 512 * 3 % 2 ^ 32) % 2 ^ 32 = _
  omega

theorem barrettNat {x : UInt32} (small : x.toNat < 1700) :
    (x - ((x * 16481) >>> 23) * 509).toNat = x.toNat % 509 := by
  have whole : (x * 16481).toNat = x.toNat * 16481 := by
    rw [UInt32.toNat_mul]
    exact Nat.mod_eq_of_lt (show x.toNat * 16481 < 2 ^ 32 by omega)
  have quotient : ((x * 16481) >>> 23).toNat = x.toNat / 509 := by
    change (x * 16481).toNat >>> 23 = _
    rw [whole, Nat.shiftRight_eq_div_pow]
    omega
  have product : (((x * 16481) >>> 23) * 509).toNat = x.toNat / 509 * 509 := by
    rw [UInt32.toNat_mul, quotient]
    change x.toNat / 509 * 509 % 2 ^ 32 = _
    omega
  rw [UInt32.toNat_sub, product]
  omega

theorem svBarrettStoreNat {acc : UInt32} (small : acc.toNat < 2 ^ 25) :
    (Sve2.svBarrettStore acc).toNat = acc.toNat % 509 := by
  have once := fpredMersenneNat small
  have twice := fpredMersenneNat (x := Sve2.fpredMersenne acc) (by omega)
  have last := barrettNat (x := Sve2.fpredMersenne (Sve2.fpredMersenne acc)) (by omega)
  have kept : (Sve2.fpredMersenne (Sve2.fpredMersenne acc)).toNat % 509 = acc.toNat % 509 := by omega
  have store : ∀ x : UInt32, x.toUInt16.toNat = x.toNat % 2 ^ 16 := fun _ => rfl
  rw [Sve2.svBarrettStore, store, last, kept]
  omega

theorem restrTable : ∀ x < 128, (restrToVal (UInt8.ofNat x).toUInt16).toNat = 16 ^ x % 509 := by
  decide +kernel

theorem lookupTable : ∀ x < 254, (Sve2.tableRestrToVal.getD x 0).toNat = 16 ^ x % 509 := by
  decide +kernel

theorem restrNat {x : FzElem} (small : x.toNat ≤ 127) : (restrToVal x.toUInt16).toNat = 16 ^ x.toNat % 509 := by
  have table := restrTable x.toNat (by omega)
  rwa [ofNatNat] at table

theorem powerClass (x : Nat) : 16 ^ x % 509 = 16 ^ (x % 127) % 509 := by
  have period : 16 ^ 127 % 509 = 1 := by decide
  have split : 16 ^ x = (16 ^ 127) ^ (x / 127) * 16 ^ (x % 127) := by
    rw [← pow_mul, ← pow_add, Nat.div_add_mod]
  rw [split, Nat.mul_mod, Nat.pow_mod, period, Nat.one_pow, Nat.one_mod, Nat.one_mul, Nat.mod_mod]

theorem sameRestr {n : Nat} {a b : FzVec n} (left : Redundant a) (right : Redundant b)
    (same : ∀ i : Fin n, a[i].toNat % 127 = b[i].toNat % 127) :
    convertRestrVecToFp a = convertRestrVecToFp b := by
  ext i h
  have one := restrNat (left ⟨i, h⟩)
  have two := restrNat (right ⟨i, h⟩)
  rw [powerClass, same, ← powerClass, ← two] at one
  have entry : ∀ v : FzVec n, (convertRestrVecToFp v)[i] = restrToVal v[i].toUInt16 := fun v =>
    Vector.getElem_map _ _
  rw [entry, entry]
  exact one

def Reduced {n : Nat} (v : FpVec n) : Prop := ∀ i : Fin n, v[i].toNat < 509

theorem restrReduced {n : Nat} {v : FzVec n} (small : Redundant v) : Reduced (convertRestrVecToFp v) := by
  intro i
  have entry : (convertRestrVecToFp v)[i] = restrToVal v[i].toUInt16 := Vector.getElem_map _ _
  rw [entry, restrNat (small i)]
  exact Nat.mod_lt _ (by decide)

section Rows

variable {k n : Nat}

def MatrixReduced (vTr : Matrix FpElem k (n - k)) : Prop := ∀ i : Fin k, Reduced vTr[i]

theorem tableLookup {e : FzVec n} (inE : InGroup e) :
    (e.map fun x => (Sve2.tableRestrToVal.getD x.toNat 0).toUInt32) = (convertRestrVecToFp e).map UInt16.toUInt32 := by
  ext i inside
  have small : e[i].toNat < 127 := inE ⟨i, inside⟩
  have entry := lookupTable e[i].toNat (by omega)
  rw [← restrNat (Nat.le_of_lt small)] at entry
  rw [Vector.getElem_map, Vector.getElem_map, convertRestrVecToFp, Vector.getElem_map, UInt16.toNat_inj.mp entry]

def rowSum (inside : k ≤ n) (e : FpVec n) (vTr : Matrix FpElem k (n - k)) (j : Fin (n - k)) : Nat :=
  (getElem e (k + j.val) (restInside inside j)).toNat + ∑ i : Fin k, (e.get (i.castLE inside)).toNat * vTr[i][j].toNat

variable {inside : k ≤ n} {e : FpVec n} {vTr : Matrix FpElem k (n - k)}

theorem termBound (inE : Reduced e) (inV : MatrixReduced vTr) (i : Fin k) (j : Fin (n - k)) :
    (e.get (i.castLE inside)).toNat * vTr[i][j].toNat ≤ 508 * 508 :=
  Nat.mul_le_mul (Nat.le_of_lt_succ (inE (i.castLE inside))) (Nat.le_of_lt_succ (inV i j))

theorem portableRows (inE : Reduced e) (inV : MatrixReduced vTr) (j : Fin (n - k)) :
    (Portable.addRows inside e vTr)[j].toNat = rowSum inside e vTr j % 509 := by
  rw [rowSum, ← upToFinSum, Portable.addRows]
  refine Loop.upToFinRelated (fun _ (res : FpVec (n - k)) total => res[j].toNat = total % 509) ?_ ?_
  · have entry : (Vector.ofFn fun j : Fin (n - k) => e[k + j.val])[j] = e[k + j.val] :=
      Vector.getElem_ofFn _
    have small : e[k + j.val].toNat < 509 := inE ⟨k + j.val, by omega⟩
    rw [entry, Nat.mod_eq_of_lt small]
  · intro i res total here
    have term := @termBound k n inside e vTr inE inV i j
    have entry : (Vector.ofFn fun j : Fin (n - k) => fpredDouble
        (res[j].toUInt32 + (e.get (i.castLE inside)).toUInt32 * vTr[i][j].toUInt32))[j] = fpredDouble
        (res[j].toUInt32 + (e.get (i.castLE inside)).toUInt32 * vTr[i][j].toUInt32) :=
      Vector.getElem_ofFn _
    rw [entry, fpredDoubleNat, UInt32.toNat_add, UInt32.toNat_mul]
    change (res[j].toNat + (e.get (i.castLE inside)).toNat * vTr[i][j].toNat % 2 ^ 32) % 2 ^ 32 % 509 = _
    rw [Nat.mod_eq_of_lt (show (e.get (i.castLE inside)).toNat * vTr[i][j].toNat < 2 ^ 32 by omega),
      Nat.mod_eq_of_lt (a := res[j].toNat + _) (by omega), here, Nat.mod_add_mod]

theorem rowStep (room : 508 + k * (508 * 508) < 2 ^ 25) (inE : Reduced e) (inV : MatrixReduced vTr) (i : Fin k)
    (j : Fin (n - k)) {acc : UInt32} (small : acc.toNat ≤ 508 + i.val * (508 * 508)) :
    (acc + vTr[i][j].toUInt32 * (e.map UInt16.toUInt32).get (i.castLE inside)).toNat =
        acc.toNat + (e.get (i.castLE inside)).toNat * vTr[i][j].toNat ∧
      acc.toNat + (e.get (i.castLE inside)).toNat * vTr[i][j].toNat ≤ 508 + (i.val + 1) * (508 * 508) := by
  have term := @termBound k n inside e vTr inE inV i j
  have below : (i.val + 1) * (508 * 508) ≤ k * (508 * 508) := Nat.mul_le_mul_right _ i.isLt
  have entry : (e.map UInt16.toUInt32).get (i.castLE inside) = (e.get (i.castLE inside)).toUInt32 :=
    Vector.getElem_map _ _
  refine ⟨?_, by omega⟩
  rw [entry, UInt32.toNat_add, UInt32.toNat_mul, Nat.mul_comm]
  change (acc.toNat + (e.get (i.castLE inside)).toNat * vTr[i][j].toNat % 2 ^ 32) % 2 ^ 32 = _
  omega

theorem rowStart (inE : Reduced e) (j : Fin (n - k)) (rest : k + j.val < n) :
    (e.map UInt16.toUInt32)[k + j.val].toNat = e[k + j.val].toNat ∧ e[k + j.val].toNat ≤ 508 := by
  have small : e[k + j.val].toNat < 509 := inE ⟨k + j.val, by omega⟩
  rw [Vector.getElem_map]
  exact ⟨rfl, by omega⟩

theorem sve2Rows (length : VectorLength) (room : 508 + k * (508 * 508) < 2 ^ 25) (inE : Reduced e)
    (inV : MatrixReduced vTr) (j : Fin (n - k)) :
    (Sve2.addRows length inside (e.map UInt16.toUInt32) vTr)[j].toNat = rowSum inside e vTr j % 509 := by
  rw [Sve2.addRows, Batch.lanesAll length.svcntwPositive, readFin, Vector.getElem_ofFn,
    rowSum, ← upToFinSum]
  have lane : ∀ start : UInt32, start.toNat = e[k + j.val].toNat →
      let acc := Loop.upToFin k (fun i acc => acc + vTr[i][j].toUInt32 *
        (e.map UInt16.toUInt32).get (i.castLE inside)) start
      acc.toNat = Loop.upToFin k (fun i t => t + (e.get (i.castLE inside)).toNat * vTr[i][j].toNat)
        e[k + j.val].toNat ∧ acc.toNat ≤ 508 + k * (508 * 508) := by
    intro start same
    refine Loop.upToFinRelated (fun i (acc : UInt32) total => acc.toNat = total ∧ acc.toNat ≤ 508 + i * (508 * 508)) ?_ ?_
    · have small := (rowStart inE j (restInside inside j)).2
      exact ⟨same, by omega⟩
    · intro i acc total here
      have step := @rowStep k n inside e vTr room inE inV i j acc here.2
      rw [← here.1, step.1]
      exact ⟨rfl, step.2⟩
  obtain ⟨value, bound⟩ := lane _ (rowStart inE j (restInside inside j)).1
  exact (svBarrettStoreNat (Nat.lt_of_le_of_lt bound room)).trans (congrArg (· % 509) value)

end Rows
end Armor.Cross
