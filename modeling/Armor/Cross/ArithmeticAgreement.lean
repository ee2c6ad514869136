import Armor.Cross.FpFacts

/-! The lazy SVE2 products against the portable ones, at every parameter set and vector
length. The registers are followed over the naturals, where nothing can wrap, next to the
machine words: no value outgrows its word, so the two runs are the same numbers. -/
namespace Armor.Cross

section Product

variable {m n : Nat}

namespace Sve2

def fzredExact (x : Nat) : Nat := (x &&& 0x7f) + (x >>> 7)

def fzAccumulateExact (e : FzVec m) (wMat : Matrix FzElem m (n - m)) (j : Fin (n - m)) : Nat × List Nat :=
  Loop.upToFin m (fun i s =>
    let acc := s.1 + wMat[i][j].toNat * e[i].toNat
    if i.val &&& 3 = 3 then (fzredExact acc, fzredExact acc :: acc :: s.2) else (acc, acc :: s.2)) (0, [0])

def fzLaneValues (e : FzVec m) (wMat : Matrix FzElem m (n - m)) (j : Fin (n - m)) : List Nat :=
  let s := fzAccumulateExact e wMat j
  fzredExact (fzredExact s.1) :: fzredExact s.1 :: s.2

end Sve2

theorem fzredExactFold (x : Nat) : Sve2.fzredExact x = x % 128 + x / 128 := by
  rw [Sve2.fzredExact, show x &&& 0x7f = x % 128 from Nat.and_two_pow_sub_one_eq_mod x 7, Nat.shiftRight_eq_div_pow]

theorem fzredExactWord (x : UInt16) : (Sve2.svFzredSingle x).toNat = Sve2.fzredExact x.toNat := by
  rw [svFzredSingleNat, fzredExactFold]

variable {e : FzVec m} {wMat : Matrix FzElem m (n - m)}

theorem fzAccumulatorFits (inE : InGroup e) (inW : MatrixInGroup wMat) (j : Fin (n - m)) :
    (Sve2.fzAccumulate e wMat j).toNat = (Sve2.fzAccumulateExact e wMat j).1 ∧
      ∀ value ∈ (Sve2.fzAccumulateExact e wMat j).2, value ≤ 65535 := by
  have lane : (Sve2.fzAccumulate e wMat j).toNat = (Sve2.fzAccumulateExact e wMat j).1 ∧
      (Sve2.fzAccumulate e wMat j).toNat ≤ 628 + m % 4 * 15876 ∧
      ∀ value ∈ (Sve2.fzAccumulateExact e wMat j).2, value ≤ 65535 := by
    refine Loop.upToFinRelated (fun i (acc : UInt16) (s : Nat × List Nat) => acc.toNat = s.1 ∧
      acc.toNat ≤ 628 + i % 4 * 15876 ∧ ∀ value ∈ s.2, value ≤ 65535) ?_ ?_
    · exact ⟨rfl, by decide, by simp⟩
    · intro i acc s ⟨same, small, seen⟩
      obtain ⟨whole, bound⟩ := laneStep inE inW i j small
      rw [same] at bound whole
      simp only [everyFourth]
      split
      · have folded := fzredExactFold (s.1 + wMat[i][j].toNat * e[i].toNat)
        rw [fzredExactWord, whole]
        refine ⟨rfl, by omega, ?_⟩
        simp only [List.forall_mem_cons]
        exact ⟨by omega, by omega, seen⟩
      · rename_i before
        have next : (i.val + 1) % 4 = i.val % 4 + 1 := by omega
        rw [whole, next]
        refine ⟨rfl, bound, ?_⟩
        simp only [List.forall_mem_cons]
        exact ⟨Nat.le_trans bound (by omega), seen⟩
  exact ⟨lane.1, lane.2.2⟩

structure ProductAgreement (length : VectorLength) (e : FzVec m) (wMat : Matrix FzElem m (n - m)) : Prop where
  fits : ∀ j, ∀ value ∈ Sve2.fzLaneValues e wMat j, value ≤ 65535
  register : ∀ j, (Sve2.svFzredDouble (Sve2.fzAccumulate e wMat j)).toNat = (Sve2.fzLaneValues e wMat j).headD 0
  range : ∀ i : Fin n, (Sve2.fzInfWByFzMatrix length e wMat)[i].toNat ≤ 127
  residue : ∀ i : Fin n, (Sve2.fzInfWByFzMatrix length e wMat)[i].toNat % 127 = wordClass e wMat i % 127
  norm : fzDzNorm (Sve2.fzInfWByFzMatrix length e wMat) = fzDzNorm (Portable.fzInfWByFzMatrix e wMat)
  powers : ∀ i : Fin n, restrToVal (Sve2.fzInfWByFzMatrix length e wMat)[i].toUInt16 =
    restrToVal (Portable.fzInfWByFzMatrix e wMat)[i].toUInt16

end Product

theorem fzProductAgrees (category : Category) (length : VectorLength) {e : FzVec category.parameters.m}
    {wMat : Matrix FzElem category.parameters.m (category.parameters.n - category.parameters.m)}
    (inE : InGroup e) (inW : MatrixInGroup wMat) : ProductAgreement length e wMat := by
  obtain ⟨range, residue⟩ := sve2Word length category.parameters.lastFold inE inW
  obtain ⟨portableRange, portableResidue⟩ := portableWord inE inW
  have same := fun i => (residue i).trans (portableResidue i).symm
  constructor
  · intro j
    obtain ⟨here, seen⟩ := fzAccumulatorFits inE inW j
    have small := (Sve2.fzAccumulate e wMat j).toNat_lt
    have once := fzredExactFold (Sve2.fzAccumulateExact e wMat j).1
    have twice := fzredExactFold (Sve2.fzredExact (Sve2.fzAccumulateExact e wMat j).1)
    simp only [Sve2.fzLaneValues, List.forall_mem_cons]
    exact ⟨by omega, by omega, seen⟩
  · intro j
    rw [Sve2.svFzredDouble, fzredExactWord, fzredExactWord, (fzAccumulatorFits inE inW j).1]
    rfl
  · exact range
  · exact residue
  · exact sameNorm range portableRange same
  · intro i
    have powers := congrArg (fun v => v[i]) (sameRestr range portableRange same)
    simpa [convertRestrVecToFp] using powers

theorem inGroupReplicate {x : FzElem} (small : x.toNat < 127) (n : Nat) : InGroup (Vector.replicate n x) := by
  intro i
  rw [readFin, Vector.getElem_replicate]
  exact small

theorem matrixInGroupReplicate {m n : Nat} {x : FzElem} (small : x.toNat < 127) :
    MatrixInGroup (Vector.replicate m (Vector.replicate (n - m) x)) := by
  intro i
  rw [readFin, Vector.getElem_replicate]
  exact inGroupReplicate small (n - m)

theorem fzProductAgreesAtTop : ProductAgreement ⟨1, Nat.one_pos⟩ (Vector.replicate 25 (126 : FzElem))
    (Vector.replicate 25 (Vector.replicate (55 - 25) (126 : FzElem))) :=
  fzProductAgrees .one ⟨1, Nat.one_pos⟩ (inGroupReplicate (by decide) 25) (matrixInGroupReplicate (by decide))

section Rows

variable {k n : Nat}

namespace Sve2

def fpredMersenneExact (x : Nat) : Nat := (x &&& 0x1FF) + (x >>> 9) * 3

def rowAccumulate (inside : k ≤ n) (e : Vector UInt32 n) (vTr : Matrix FpElem k (n - k)) (j : Fin (n - k)) : UInt32 :=
  Loop.upToFin k (fun i acc => acc + vTr[i][j].toUInt32 * e.get (i.castLE inside))
    (getElem e (k + j.val) (restInside inside j))

def rowAccumulateExact (inside : k ≤ n) (e : Vector UInt32 n) (vTr : Matrix FpElem k (n - k)) (j : Fin (n - k)) :
    Nat × List Nat :=
  Loop.upToFin k (fun i s =>
    let acc := s.1 + vTr[i][j].toNat * (e.get (i.castLE inside)).toNat
    (acc, acc :: s.2))
    ((getElem e (k + j.val) (restInside inside j)).toNat, [(getElem e (k + j.val) (restInside inside j)).toNat])

def rowLaneValues (inside : k ≤ n) (e : Vector UInt32 n) (vTr : Matrix FpElem k (n - k)) (j : Fin (n - k)) : List Nat :=
  let s := rowAccumulateExact inside e vTr j
  let acc := fpredMersenneExact (fpredMersenneExact s.1)
  acc * 16481 :: acc :: fpredMersenneExact s.1 :: s.2

def addRowsInto (length : VectorLength) (inside : k ≤ n) (e : Vector UInt32 n) (vTr : Matrix FpElem k (n - k))
    (res : Slots FpElem) : Slots FpElem :=
  Batch.lanesInto length.svcntw (n - k) (fun j => svBarrettStore (rowAccumulate inside e vTr j)) res

end Sve2

theorem fpredMersenneFold (x : Nat) : Sve2.fpredMersenneExact x = x % 512 + x / 512 * 3 := by
  rw [Sve2.fpredMersenneExact, show x &&& 0x1FF = x % 512 from Nat.and_two_pow_sub_one_eq_mod x 9,
    Nat.shiftRight_eq_div_pow]

variable {inside : k ≤ n} {u : FpVec n} {vTr : Matrix FpElem k (n - k)}

theorem rowAccumulatorFits (room : 508 + k * (508 * 508) < 2 ^ 25) (inU : Reduced u) (inV : MatrixReduced vTr)
    (j : Fin (n - k)) :
    let lane := Sve2.rowAccumulateExact inside (u.map UInt16.toUInt32) vTr j
    (Sve2.rowAccumulate inside (u.map UInt16.toUInt32) vTr j).toNat = lane.1 ∧ lane.1 < 2 ^ 25 ∧
      ∀ value ∈ lane.2, value < 2 ^ 32 := by
  intro lane
  obtain ⟨start, low⟩ := rowStart inU j (restInside inside j)
  have run : (Sve2.rowAccumulate inside (u.map UInt16.toUInt32) vTr j).toNat = lane.1 ∧
      (Sve2.rowAccumulate inside (u.map UInt16.toUInt32) vTr j).toNat ≤ 508 + k * (508 * 508) ∧
      ∀ value ∈ lane.2, value < 2 ^ 32 := by
    refine Loop.upToFinRelated (fun i (acc : UInt32) (s : Nat × List Nat) => acc.toNat = s.1 ∧
      acc.toNat ≤ 508 + i * (508 * 508) ∧ ∀ value ∈ s.2, value < 2 ^ 32) ?_ ?_
    · refine ⟨rfl, by omega, ?_⟩
      simp only [List.forall_mem_singleton]
      omega
    · intro i acc s ⟨same, small, seen⟩
      obtain ⟨whole, bound⟩ := @rowStep k n inside u vTr room inU inV i j acc small
      have below : (i.val + 1) * (508 * 508) ≤ k * (508 * 508) := Nat.mul_le_mul_right _ i.isLt
      have entry : (u.map UInt16.toUInt32).get (i.castLE inside) = (u.get (i.castLE inside)).toUInt32 :=
        Vector.getElem_map _ _
      have exactTerm : vTr[i][j].toNat * ((u.map UInt16.toUInt32).get (i.castLE inside)).toNat =
          (u.get (i.castLE inside)).toNat * vTr[i][j].toNat := by
        rw [entry, Nat.mul_comm, UInt16.toNat_toUInt32]
      rw [same] at whole bound
      rw [whole, exactTerm]
      refine ⟨rfl, bound, ?_⟩
      simp only [List.forall_mem_cons]
      exact ⟨by omega, seen⟩
  refine ⟨run.1, ?_, run.2.2⟩
  rw [← run.1]
  exact Nat.lt_of_le_of_lt run.2.1 room

structure RowsAgreement (length : VectorLength) (inside : k ≤ n) (e : Vector UInt32 n)
    (vTr : Matrix FpElem k (n - k)) (sve2 portable : FpVec (n - k)) : Prop where
  fits : ∀ j, ∀ value ∈ Sve2.rowLaneValues inside e vTr j, value < 2 ^ 32
  register : ∀ j, (Sve2.fpredMersenne (Sve2.fpredMersenne (Sve2.rowAccumulate inside e vTr j)) * 16481).toNat =
    (Sve2.rowLaneValues inside e vTr j).headD 0
  canonical : ∀ j : Fin (n - k), sve2[j].toNat ≤ 508
  agree : sve2 = portable
  stored : ∀ (res : Slots FpElem) (j : Fin (n - k)), (Sve2.addRowsInto length inside e vTr res).cell j = sve2[j]
  outside : ∀ (res : Slots FpElem) (a : Nat), n - k ≤ a → (Sve2.addRowsInto length inside e vTr res).cell a = res.cell a
  writes : ∀ res : Slots FpElem, ∃ fresh, (Sve2.addRowsInto length inside e vTr res).log = fresh ++ res.log ∧
    ∀ a ∈ fresh, a < n - k

theorem rowsAgree (length : VectorLength) (room : 508 + k * (508 * 508) < 2 ^ 25) (inU : Reduced u)
    (inV : MatrixReduced vTr) : RowsAgreement length inside (u.map UInt16.toUInt32) vTr
      (Sve2.addRows length inside (u.map UInt16.toUInt32) vTr) (Portable.addRows inside u vTr) := by
  have fits := fun j => @rowAccumulatorFits k n inside u vTr room inU inV j
  have column : ∀ j : Fin (n - k), (Sve2.addRows length inside (u.map UInt16.toUInt32) vTr)[j] =
      Sve2.svBarrettStore (Sve2.rowAccumulate inside (u.map UInt16.toUInt32) vTr j) := fun j => by
    rw [Sve2.addRows, Batch.lanesAll length.svcntwPositive, readFin, Vector.getElem_ofFn]
    rfl
  have written := fun res => Batch.lanesIntoWrites length.svcntwPositive
    (fun j => Sve2.svBarrettStore (Sve2.rowAccumulate inside (u.map UInt16.toUInt32) vTr j)) res
  constructor
  · intro j
    obtain ⟨-, bound, seen⟩ := fits j
    have once := fpredMersenneFold (Sve2.rowAccumulateExact inside (u.map UInt16.toUInt32) vTr j).1
    have twice := fpredMersenneFold
      (Sve2.fpredMersenneExact (Sve2.rowAccumulateExact inside (u.map UInt16.toUInt32) vTr j).1)
    simp only [Sve2.rowLaneValues, List.forall_mem_cons]
    exact ⟨by omega, by omega, by omega, seen⟩
  · intro j
    obtain ⟨same, bound, -⟩ := fits j
    have once := fpredMersenneNat (x := Sve2.rowAccumulate inside (u.map UInt16.toUInt32) vTr j) (by omega)
    have twice := fpredMersenneNat
      (x := Sve2.fpredMersenne (Sve2.rowAccumulate inside (u.map UInt16.toUInt32) vTr j)) (by omega)
    rw [← fpredMersenneFold] at once twice
    rw [once, same] at twice
    have product := fpredMersenneFold
      (Sve2.fpredMersenneExact (Sve2.rowAccumulateExact inside (u.map UInt16.toUInt32) vTr j).1)
    have first := fpredMersenneFold (Sve2.rowAccumulateExact inside (u.map UInt16.toUInt32) vTr j).1
    rw [UInt32.toNat_mul, twice]
    exact Nat.mod_eq_of_lt (show Sve2.fpredMersenneExact
      (Sve2.fpredMersenneExact (Sve2.rowAccumulateExact inside (u.map UInt16.toUInt32) vTr j).1) * 16481 < 2 ^ 32 by
        omega)
  · intro j
    rw [sve2Rows length room inU inV]
    exact Nat.le_of_lt_succ (Nat.mod_lt _ (by decide))
  · ext j h
    have one := @sve2Rows k n inside u vTr length room inU inV ⟨j, h⟩
    rw [← portableRows inU inV] at one
    exact one
  · intro res j
    rw [column]
    exact (written res).2.2 j
  · intro res a beyond
    exact (written res).2.1 a beyond
  · intro res
    exact (written res).1

end Rows

theorem fpRowsAgree (category : Category) (length : VectorLength)
    {vTr : Matrix FpElem category.parameters.k (category.parameters.n - category.parameters.k)} (inV : MatrixReduced vTr) :
    (∀ u : FpVec category.parameters.n, Reduced u →
      RowsAgreement length category.parameters.rowsInside (u.map UInt16.toUInt32) vTr
        (Sve2.fpVecByFpMatrix length category.parameters.rowsInside u vTr)
        (Portable.fpVecByFpMatrix category.parameters.rowsInside u vTr)) ∧
    ∀ e : FzVec category.parameters.n, InGroup e →
      (∀ i : Fin category.parameters.n, e[i].toNat < 2 * Z) ∧
      RowsAgreement length category.parameters.rowsInside
        (e.map fun x => (Sve2.tableRestrToVal.getD x.toNat 0).toUInt32) vTr
        (Sve2.restrVecByFpMatrix length category.parameters.rowsInside e vTr)
        (Portable.restrVecByFpMatrix category.parameters.rowsInside e vTr) := by
  refine ⟨fun u inU => rowsAgree length category.parameters.lazySum inU inV, fun e inE => ⟨fun i => ?_, ?_⟩⟩
  · have small := inE i
    have twice : 2 * Z = 254 := rfl
    omega
  · have agree := @rowsAgree _ _ category.parameters.rowsInside _ _ length category.parameters.lazySum
      (restrReduced inE.redundant) inV
    rw [← tableLookup inE] at agree
    exact agree

theorem reducedReplicate {x : FpElem} (small : x.toNat < 509) (n : Nat) : Reduced (Vector.replicate n x) := by
  intro i
  rw [readFin, Vector.getElem_replicate]
  exact small

theorem matrixReducedReplicate {k n : Nat} {x : FpElem} (small : x.toNat < 509) :
    MatrixReduced (Vector.replicate k (Vector.replicate (n - k) x)) := by
  intro i
  rw [readFin, Vector.getElem_replicate]
  exact reducedReplicate small (n - k)

theorem fpRowsAgreeAtTop :
    let u : FpVec 55 := Vector.replicate 55 508
    let vTr : Matrix FpElem 36 (55 - 36) := Vector.replicate 36 (Vector.replicate (55 - 36) 508)
    RowsAgreement ⟨1, Nat.one_pos⟩ category1.rowsInside (u.map UInt16.toUInt32) vTr
      (Sve2.fpVecByFpMatrix ⟨1, Nat.one_pos⟩ category1.rowsInside u vTr)
      (Portable.fpVecByFpMatrix category1.rowsInside u vTr) :=
  (fpRowsAgree .one ⟨1, Nat.one_pos⟩ (matrixReducedReplicate (by decide))).1 _ (reducedReplicate (by decide) 55)

end Armor.Cross
