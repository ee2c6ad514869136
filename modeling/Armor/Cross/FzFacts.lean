import Armor.Cross.Fz
import Mathlib.Algebra.BigOperators.Fin
import Mathlib.Data.Nat.ModEq

/-! What the operations on exponents compute modulo 127. The portable product reduces at every
step and the SVE2 one every fourth row: both end below 128 in the same class. -/
namespace Armor.Cross

theorem upToFinSum {k : Nat} (f : Fin k → Nat) (init : Nat) :
    Loop.upToFin k (fun i t => t + f i) init = init + ∑ i, f i := by
  induction k with
  | zero => simp
  | succ k ih => rw [Loop.upToFinSucc, ih, Fin.sum_univ_castSucc, Nat.add_assoc]

theorem foldClass (x : Nat) : (x % 128 + x / 128) % 127 = x % 127 := by
  have whole := Nat.mod_add_div x 128
  omega

theorem fzredSingleNat {x : UInt32} (small : x.toNat < 2 ^ 31) :
    (fzredSingle x).toNat = x.toNat % 128 + x.toNat / 128 := by
  have mask : (x &&& 0x7f).toNat = x.toNat % 128 := Nat.and_two_pow_sub_one_eq_mod x.toNat 7
  have shift : (x >>> 7).toNat = x.toNat / 128 := Nat.shiftRight_eq_div_pow x.toNat 7
  rw [fzredSingle, UInt32.toNat_add, mask, shift]
  omega

theorem svFzredSingleNat (x : UInt16) :
    (Sve2.svFzredSingle x).toNat = x.toNat % 128 + x.toNat / 128 := by
  have mask : (x &&& 0x7f).toNat = x.toNat % 128 := Nat.and_two_pow_sub_one_eq_mod x.toNat 7
  have shift : (x >>> 7).toNat = x.toNat / 128 := Nat.shiftRight_eq_div_pow x.toNat 7
  have small := x.toNat_lt
  rw [Sve2.svFzredSingle, UInt16.toNat_add, mask, shift]
  omega

theorem ofNatNat {x : UInt8} : UInt8.ofNat x.toNat = x := UInt8.ofNat_toNat

theorem normTable : ∀ x < 128, (fzDoubleZeroNorm (UInt8.ofNat x)).toNat = x % 127 := by
  decide +kernel

theorem oppositeTable : ∀ x < 128, (fzredOpposite (UInt8.ofNat x)).toNat = 127 - x := by
  decide +kernel

def Redundant {n : Nat} (v : FzVec n) : Prop := ∀ i : Fin n, v[i].toNat ≤ 127

def InGroup {n : Nat} (v : FzVec n) : Prop := ∀ i : Fin n, v[i].toNat < 127

theorem InGroup.redundant {n : Nat} {v : FzVec n} (h : InGroup v) : Redundant v :=
  fun i => Nat.le_of_lt (h i)

theorem normNat {x : FzElem} (small : x.toNat ≤ 127) : (fzDoubleZeroNorm x).toNat = x.toNat % 127 := by
  have table := normTable x.toNat (by omega)
  rwa [ofNatNat] at table

theorem fzDzNormAt {n : Nat} {v : FzVec n} (small : Redundant v) (i : Fin n) :
    (fzDzNorm v)[i].toNat = v[i].toNat % 127 := by
  have entry : (fzDzNorm v)[i] = fzDoubleZeroNorm v[i] := Vector.getElem_map _ _
  rw [entry, normNat (small i)]

theorem fzDzNormInGroup {n : Nat} {v : FzVec n} (small : Redundant v) : InGroup (fzDzNorm v) := by
  intro i
  rw [fzDzNormAt small]
  exact Nat.mod_lt _ (by decide)

theorem fzVecSubNat {n : Nat} {a b : FzVec n} (left : Redundant a) (right : Redundant b) (i : Fin n) :
    (fzVecSub a b)[i].toNat ≤ 127 ∧
      ((fzVecSub a b)[i].toNat + b[i].toNat) % 127 = a[i].toNat % 127 := by
  have smallLeft := left i
  have smallRight := right i
  have opposite := oppositeTable b[i].toNat (by omega)
  rw [ofNatNat] at opposite
  have sum : (a[i].toUInt32 + fzredOpposite b[i]).toNat = a[i].toNat + (127 - b[i].toNat) := by
    rw [UInt32.toNat_add, opposite]
    change (a[i].toNat + (127 - b[i].toNat)) % 2 ^ 32 = _
    omega
  have folded := fzredSingleNat (x := a[i].toUInt32 + fzredOpposite b[i]) (by omega)
  have entry : (fzVecSub a b)[i] = (fzredSingle (a[i].toUInt32 + fzredOpposite b[i])).toUInt8 :=
    Vector.getElem_ofFn _
  have stored : (fzVecSub a b)[i].toNat = (fzredSingle (a[i].toUInt32 + fzredOpposite b[i])).toNat % 256 := by
    rw [entry]; exact UInt32.toNat_toUInt8 _
  have kept := foldClass (a[i].toNat + (127 - b[i].toNat))
  have small : (fzredSingle (a[i].toUInt32 + fzredOpposite b[i])).toNat ≤ 127 := by omega
  rw [stored, Nat.mod_eq_of_lt (by omega)]
  refine ⟨small, ?_⟩
  rw [folded, sum, Nat.add_mod, kept, ← Nat.add_mod]
  omega

theorem inGroupCheck {m : Nat} (v : FzVec m) : isFzVecInRestrGroupM v = true ↔ InGroup v := by
  have run : ∀ count ≤ m, ∀ (h : count ≤ m),
      (Loop.upToFin count (fun i isInOk => isInOk && decide ((v.get (i.castLE h)).toNat < Z)) true = true ↔
        ∀ i : Fin m, i.val < count → v[i].toNat < 127) := by
    intro count _ h
    induction count with
    | zero => simp
    | succ count ih =>
      rw [Loop.upToFinSucc, Bool.and_eq_true, decide_eq_true_iff]
      have before := ih (by omega) (by omega)
      constructor
      · intro both i below
        by_cases here : i.val = count
        · have last := both.2
          have same : Fin.castLE h (Fin.last count) = i := Fin.ext here.symm
          rw [same] at last
          exact last
        · exact before.mp both.1 i (by omega)
      · intro all
        exact ⟨before.mpr fun i below => all i (by omega), all (Fin.castLE h (Fin.last count)) (Nat.lt_succ_self count)⟩
  exact (run m (Nat.le_refl m) (Nat.le_refl m)).trans ⟨fun h i => h i i.isLt, fun h i _ => h i⟩

section Product

variable {m n : Nat}

def wordSum (e : FzVec m) (wMat : Matrix FzElem m (n - m)) (j : Fin (n - m)) : Nat :=
  ∑ i : Fin m, e[i].toNat * wMat[i][j].toNat

def MatrixInGroup (wMat : Matrix FzElem m (n - m)) : Prop := ∀ i : Fin m, InGroup wMat[i]

def wordClass (e : FzVec m) (wMat : Matrix FzElem m (n - m)) (i : Fin n) : Nat :=
  if h : i.val < n - m then wordSum e wMat ⟨i.val, h⟩ else (getElem e (i.val - (n - m)) (tailInside h)).toNat

variable {e : FzVec m} {wMat : Matrix FzElem m (n - m)}

theorem entryProduct (inE : InGroup e) (inW : MatrixInGroup wMat) (i : Fin m) (j : Fin (n - m)) :
    e[i].toNat * wMat[i][j].toNat ≤ 15876 :=
  Nat.mul_le_mul (Nat.le_of_lt_succ (inE i)) (Nat.le_of_lt_succ (inW i j))

theorem portableColumn (inE : InGroup e) (inW : MatrixInGroup wMat) (j : Fin (n - m)) :
    let res := Loop.upToFin m (fun i (res : FzVec (n - m)) => Vector.ofFn fun j =>
      (fzredDouble (res[j].toUInt32 + e[i].toUInt32 * wMat[i][j].toUInt32)).toUInt8) (Vector.replicate _ 0)
    res[j].toNat ≤ 127 ∧ res[j].toNat % 127 = wordSum e wMat j % 127 := by
  intro res
  have sum := upToFinSum (fun i : Fin m => e[i].toNat * wMat[i][j].toNat) 0
  rw [Nat.zero_add] at sum
  rw [wordSum, ← sum]
  refine Loop.upToFinRelated (fun _ (res : FzVec (n - m)) total =>
    res[j].toNat ≤ 127 ∧ res[j].toNat % 127 = total % 127) ?_ ?_
  · have zero : (Vector.replicate (n - m) (0 : FzElem))[j] = 0 := Vector.getElem_replicate _
    rw [zero]
    decide
  · intro i res total here
    have product := entryProduct inE inW i j
    have whole : (res[j].toUInt32 + e[i].toUInt32 * wMat[i][j].toUInt32).toNat =
        res[j].toNat + e[i].toNat * wMat[i][j].toNat := by
      rw [UInt32.toNat_add, UInt32.toNat_mul]
      change (res[j].toNat + e[i].toNat * wMat[i][j].toNat % 2 ^ 32) % 2 ^ 32 = _
      omega
    have once := fzredSingleNat (x := res[j].toUInt32 + e[i].toUInt32 * wMat[i][j].toUInt32) (by omega)
    have twice := fzredSingleNat
      (x := fzredSingle (res[j].toUInt32 + e[i].toUInt32 * wMat[i][j].toUInt32)) (by omega)
    have entry : (Vector.ofFn fun j : Fin (n - m) =>
        (fzredDouble (res[j].toUInt32 + e[i].toUInt32 * wMat[i][j].toUInt32)).toUInt8)[j].toNat =
        (fzredDouble (res[j].toUInt32 + e[i].toUInt32 * wMat[i][j].toUInt32)).toNat % 256 := by
      rw [readFin, Vector.getElem_ofFn]
      exact UInt32.toNat_toUInt8 _
    have kept := foldClass (res[j].toNat + e[i].toNat * wMat[i][j].toNat)
    have again := foldClass (fzredSingle (res[j].toUInt32 + e[i].toUInt32 * wMat[i][j].toUInt32)).toNat
    rw [whole] at once
    rw [← once] at kept
    have middle : (fzredSingle (res[j].toUInt32 + e[i].toUInt32 * wMat[i][j].toUInt32)).toNat ≤ 252 := by omega
    rw [← twice] at again
    have small : (fzredSingle (fzredSingle (res[j].toUInt32 + e[i].toUInt32 * wMat[i][j].toUInt32))).toNat ≤ 127 := by
      omega
    rw [entry, fzredDouble, Nat.mod_eq_of_lt (by omega)]
    refine ⟨small, ?_⟩
    rw [again, kept, Nat.add_mod, here.2, ← Nat.add_mod]

theorem laneStep (inE : InGroup e) (inW : MatrixInGroup wMat) (i : Fin m) (j : Fin (n - m)) {acc : UInt16}
    (small : acc.toNat ≤ 628 + i.val % 4 * 15876) :
    (acc + wMat[i][j].toUInt16 * e[i].toUInt16).toNat = acc.toNat + wMat[i][j].toNat * e[i].toNat ∧
      acc.toNat + wMat[i][j].toNat * e[i].toNat ≤ 628 + (i.val % 4 + 1) * 15876 := by
  have product := entryProduct inE inW i j
  rw [Nat.mul_comm] at product
  refine ⟨?_, by omega⟩
  rw [UInt16.toNat_add, UInt16.toNat_mul]
  change (acc.toNat + wMat[i][j].toNat * e[i].toNat % 2 ^ 16) % 2 ^ 16 = _
  omega

theorem everyFourth (i : Nat) : i &&& 3 = i % 4 := Nat.and_two_pow_sub_one_eq_mod i 2

theorem lanesColumn (fold : m % 4 ≤ 1) (inE : InGroup e) (inW : MatrixInGroup wMat) (j : Fin (n - m)) :
    let stored := (Sve2.svFzredDouble (Sve2.fzAccumulate e wMat j)).toUInt8
    stored.toNat ≤ 127 ∧ stored.toNat % 127 = wordSum e wMat j % 127 := by
  intro stored
  have sum := upToFinSum (fun i : Fin m => e[i].toNat * wMat[i][j].toNat) 0
  rw [Nat.zero_add] at sum
  -- up to three products stand on a value that the last fold left below 628
  have lane : (Sve2.fzAccumulate e wMat j).toNat ≤ 628 + m % 4 * 15876 ∧
      (Sve2.fzAccumulate e wMat j).toNat % 127 = wordSum e wMat j % 127 := by
    rw [wordSum, ← sum, Sve2.fzAccumulate]
    refine Loop.upToFinRelated (fun i (acc : UInt16) total =>
      acc.toNat ≤ 628 + i % 4 * 15876 ∧ acc.toNat % 127 = total % 127) ?_ ?_
    · exact ⟨by decide, rfl⟩
    · intro i acc total here
      obtain ⟨whole, bound⟩ := laneStep inE inW i j here.1
      have sides := Nat.mul_comm e[i].toNat wMat[i][j].toNat
      simp only [everyFourth]
      split
      · rw [svFzredSingleNat, whole]
        omega
      · rw [whole]
        omega
  have once := svFzredSingleNat (Sve2.fzAccumulate e wMat j)
  have twice := svFzredSingleNat (Sve2.svFzredSingle (Sve2.fzAccumulate e wMat j))
  have narrow : stored.toNat = (Sve2.svFzredDouble (Sve2.fzAccumulate e wMat j)).toNat % 256 :=
    UInt16.toNat_toUInt8 _
  have kept := foldClass (Sve2.fzAccumulate e wMat j).toNat
  have again := foldClass (Sve2.svFzredSingle (Sve2.fzAccumulate e wMat j)).toNat
  rw [← once] at kept
  rw [← twice] at again
  have small : (Sve2.svFzredSingle (Sve2.svFzredSingle (Sve2.fzAccumulate e wMat j))).toNat ≤ 127 := by
    omega
  rw [narrow, Sve2.svFzredDouble, Nat.mod_eq_of_lt (by omega)]
  exact ⟨small, by rw [again, kept, lane.2]⟩

theorem systematicWord {product : FzVec (n - m)} (inE : InGroup e)
    (column : ∀ j : Fin (n - m), product[j].toNat ≤ 127 ∧ product[j].toNat % 127 = wordSum e wMat j % 127) :
    Redundant (systematic product e) ∧
      ∀ i : Fin n, (systematic product e)[i].toNat % 127 = wordClass e wMat i % 127 := by
  have entry : ∀ i : Fin n, (systematic product e)[i] =
      if h : i.val < n - m then product[i.val] else e[i.val - (n - m)] := fun i => by
    rw [systematic, readFin, Vector.getElem_ofFn]
  refine ⟨fun i => ?_, fun i => ?_⟩
  · rw [entry]
    split
    · rename_i left
      exact (column ⟨i.val, left⟩).1
    · exact inE.redundant ⟨i.val - (n - m), by omega⟩
  · rw [entry, wordClass]
    split
    · rename_i left
      exact (column ⟨i.val, left⟩).2
    · rfl

theorem portableWord (inE : InGroup e) (inW : MatrixInGroup wMat) :
    Redundant (Portable.fzInfWByFzMatrix e wMat) ∧
      ∀ i : Fin n, (Portable.fzInfWByFzMatrix e wMat)[i].toNat % 127 = wordClass e wMat i % 127 :=
  systematicWord inE (portableColumn inE inW)

theorem sve2Word (length : VectorLength) (fold : m % 4 ≤ 1) (inE : InGroup e) (inW : MatrixInGroup wMat) :
    Redundant (Sve2.fzInfWByFzMatrix length e wMat) ∧
      ∀ i : Fin n, (Sve2.fzInfWByFzMatrix length e wMat)[i].toNat % 127 = wordClass e wMat i % 127 := by
  rw [Sve2.fzInfWByFzMatrix, Batch.lanesAll length.svcnthPositive]
  refine systematicWord inE fun j => ?_
  rw [readFin, Vector.getElem_ofFn]
  exact lanesColumn fold inE inW j

end Product

theorem sameNorm {n : Nat} {a b : FzVec n} (left : Redundant a) (right : Redundant b)
    (same : ∀ i : Fin n, a[i].toNat % 127 = b[i].toNat % 127) : fzDzNorm a = fzDzNorm b := by
  ext i h
  have one := fzDzNormAt left ⟨i, h⟩
  have two := fzDzNormAt right ⟨i, h⟩
  rw [same, ← two] at one
  exact congrArg UInt8.toNat (UInt8.toNat_inj.mp one)

end Armor.Cross
