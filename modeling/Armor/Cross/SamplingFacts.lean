import Armor.Cross.Sampling
import Armor.Cross.FpFacts
import Armor.Cross.TreeGuarantees
import Mathlib.Logic.Equiv.Basic

/-! What the samplers return: elements of the field and of the group, and challenges of weight `W`. -/
namespace Armor.Cross

theorem fpSampled {count : Nat} (shake : Shake) (bits : Nat) (res : FpVec count) (csprngState : CsprngState) :
    Reduced (sampleBits (fpSampler count) shake bits res csprngState).1 := by
  intro i
  exact of_decide_eq_true (@belowBoundAdmitted FpElem count bitsForP (fun candidate => candidate.toUInt16)
    (fun x => decide (x.toNat < P)) _ _ _ _ res i)

theorem fzSampled {count : Nat} (shake : Shake) (bits : Nat) (res : FzVec count) (csprngState : CsprngState) :
    InGroup (sampleBits (fzSampler count) shake bits res csprngState).1 := by
  intro i
  exact of_decide_eq_true (@belowBoundAdmitted FzElem count bitsForZ (fun candidate => candidate.toUInt8)
    (fun x => decide (x.toNat < Z)) _ _ _ _ res i)

theorem asRowsEntry {α : Type} {rows cols : Nat} (flat : Vector α (rows * cols)) (i : Fin rows) (j : Fin cols) :
    ∃ a : Fin (rows * cols), (asRows flat)[i][j] = flat[a] := by
  have inside : i.val * cols + j.val < rows * cols := by
    have := Nat.mul_le_mul_right cols (Nat.succ_le_of_lt i.isLt)
    rw [Nat.succ_mul] at this
    omega
  refine ⟨⟨i.val * cols + j.val, inside⟩, ?_⟩
  simp only [asRows, readFin, Vector.getElem_ofFn]
  rfl

variable (p : Parameters) (shake : Shake)

theorem csprngFpVecReduced (csprngState : CsprngState) : Reduced (csprngFpVec p shake csprngState).1 :=
  fpSampled shake _ _ _

theorem csprngFzInfWInGroup (csprngState : CsprngState) : InGroup (csprngFzInfW p shake csprngState).1 :=
  fzSampled shake _ _ _

theorem csprngFpMatReduced (csprngState : CsprngState) : MatrixReduced (csprngFpMat p shake csprngState).1 := by
  intro i j
  obtain ⟨a, entry⟩ := asRowsEntry (sampleBits (fpSampler (p.k * (p.n - p.k))) shake p.bitsVCtRng
    (Vector.replicate _ 0) csprngState).1 i j
  rw [csprngFpMat, entry]
  exact fpSampled shake _ _ _ a

theorem csprngFzMatInGroup (csprngState : CsprngState) : MatrixInGroup (csprngFzMat p shake csprngState).1 := by
  intro i j
  obtain ⟨a, entry⟩ := asRowsEntry (sampleBits (fzSampler (p.m * (p.n - p.m))) shake p.bitsWCtRng
    (Vector.replicate _ 0) csprngState).1 i j
  rw [csprngFzMat, entry]
  exact fzSampled shake _ _ _ a

structure FixedWeight (s : Mem) : Prop where
  binary : ∀ i < p.t, s i = 0 ∨ s i = 1
  ends : ∀ i, p.t ≤ i → s i = 0
  weight : ((Finset.range p.t).filter fun i => s i = 1).card = p.w

theorem swapAt (s : Mem) (curr dest i : Nat) : swap s curr dest i = s (Equiv.swap curr dest i) := by
  rw [swap, Equiv.swap_apply_def]
  by_cases last : i = dest
  · rw [last, Function.update_self]
    split
    · rename_i same
      rw [same]
    · rw [if_pos rfl]
  · rw [Function.update_of_ne last]
    by_cases first : i = curr
    · rw [first, Function.update_self, if_pos rfl]
    · rw [Function.update_of_ne first, if_neg first, if_neg last]

theorem swapInside {n curr dest : Nat} (left : curr < n) (right : dest < n) (i : Nat) :
    Equiv.swap curr dest i < n ↔ i < n := by
  rw [Equiv.swap_apply_def]
  split
  · rename_i same
    rw [same]
    exact ⟨fun _ => left, fun _ => right⟩
  · split
    · rename_i same
      rw [same]
      exact ⟨fun _ => right, fun _ => left⟩
    · rfl

theorem FixedWeight.swap {p : Parameters} {s : Mem} (fixed : FixedWeight p s) {curr dest : Nat} (left : curr < p.t)
    (right : dest < p.t) : FixedWeight p (swap s curr dest) where
  binary i inside := by
    rw [swapAt]
    exact fixed.binary _ ((swapInside left right i).mpr inside)
  ends i beyond := by
    rw [swapAt]
    exact fixed.ends _ (Nat.le_of_not_lt fun inside => Nat.not_lt_of_le beyond ((swapInside left right i).mp inside))
  weight := by
    rw [← fixed.weight, ← Finset.card_map (Equiv.swap curr dest).toEmbedding]
    congr 1
    ext i
    have back : Equiv.swap curr dest (Equiv.swap curr dest i) = i := Equiv.swapCore_swapCore i curr dest
    rw [Finset.mem_map_equiv, Equiv.symm_swap, Finset.mem_filter, Finset.mem_filter, Finset.mem_range,
      Finset.mem_range, swapInside left right, swapAt, back]

theorem initialFixedWeight : FixedWeight p fun i => if i < p.w then 1 else 0 where
  binary i _ := by
    split
    · exact .inr rfl
    · exact .inl rfl
  ends i beyond := if_neg (Nat.not_lt_of_le (Nat.le_trans (Nat.le_of_lt p.weightBelow) beyond))
  weight := by
    have ones : ((Finset.range p.t).filter fun i => (if i < p.w then (1 : UInt8) else 0) = 1) = Finset.range p.w := by
      ext i
      rw [Finset.mem_filter, Finset.mem_range, Finset.mem_range]
      constructor
      · intro member
        by_contra beyond
        rw [if_neg beyond] at member
        exact absurd member.2 (by decide)
      · intro low
        exact ⟨Nat.lt_trans low p.weightBelow, if_pos low⟩
    rw [ones, Finset.card_range]

theorem expandedFixedWeight (digest : Block p.hashLength) : FixedWeight p (expandDigestToFixedWeight p shake digest) := by
  refine Sampler.runInvariant (d := shuffle p) (fun _ s => FixedWeight p s) (Nat.zero_le _) (initialFixedWeight p)
    (fun curr below candidate s fixed => ?_) _ _
  dsimp only [shuffle]
  split
  · rename_i room
    exact fixed.swap below (by omega)
  · exact fixed

def challengeOf (digest : Block p.hashLength) : Challenge p where
  rounds := Vector.ofFn fun i => expandDigestToFixedWeight p shake digest i
  binary i inside := by
    rw [Vector.getElem_ofFn]
    exact (expandedFixedWeight p shake digest).binary i inside

theorem challengeOfArray (digest : Block p.hashLength) :
    (challengeOf p shake digest).array = expandDigestToFixedWeight p shake digest := by
  funext i
  rw [Challenge.array]
  split
  · rw [challengeOf, Vector.getElem_ofFn]
  · rename_i beyond
    exact ((expandedFixedWeight p shake digest).ends i (Nat.le_of_not_lt beyond)).symm

theorem challengeOfWeight (digest : Block p.hashLength) : (challengeOf p shake digest).weight = p.w := by
  rw [Challenge.weight, challengeOfArray]
  exact (expandedFixedWeight p shake digest).weight

theorem challengeOfZero (digest : Block p.hashLength) : ∃ cnt < p.t, (challengeOf p shake digest).array cnt = 0 :=
  (challengeOf p shake digest).someZero (by rw [challengeOfWeight]; exact p.weightBelow)

end Armor.Cross
