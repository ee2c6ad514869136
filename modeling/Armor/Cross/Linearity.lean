import Armor.Cross.VerifyEquivalence
import Mathlib.Data.ZMod.Basic

/-! Linearity of the two matrix products, over the exponents and over the field. The syndrome that
the verifier computes from an honest response is the signer's. -/
namespace Armor.Cross

section Linear

variable {m n k : Nat}

theorem wordLinear {a b d : FzVec m} {wMat : Matrix FzElem m (n - m)}
    (sum : ∀ i : Fin m, (a[i].toNat + b[i].toNat) % 127 = d[i].toNat % 127) (i : Fin n) :
    (wordClass a wMat i + wordClass b wMat i) % 127 = wordClass d wMat i % 127 := by
  unfold wordClass
  split
  · rename_i left
    have entries : ∀ i : Fin m, ((a[i].toNat : ZMod 127) + b[i].toNat) = d[i].toNat := by
      intro i
      have here := (ZMod.natCast_eq_natCast_iff' _ _ 127).mpr (sum i)
      push_cast at here
      exact here
    refine (ZMod.natCast_eq_natCast_iff' _ _ 127).mp ?_
    unfold wordSum
    push_cast
    rw [← Finset.sum_add_distrib]
    refine Finset.sum_congr rfl fun i _ => ?_
    rw [← add_mul, entries i]
  · exact sum ⟨i.val - (n - m), by omega⟩

def field (v : FpVec n) (i : Fin n) : ZMod 509 := (v[i].toNat : ZMod 509)

theorem rowSumField (inside : k ≤ n) (e : FpVec n) (vTr : Matrix FpElem k (n - k)) (j : Fin (n - k)) :
    (rowSum inside e vTr j : ZMod 509) =
      field e ⟨k + j.val, by omega⟩ + ∑ i : Fin k, field e (i.castLE inside) * (vTr[i][j].toNat : ZMod 509) := by
  unfold rowSum field
  push_cast
  rfl

theorem rowSumLinear {inside : k ≤ n} {a b c : FpVec n} {t : ZMod 509} {vTr : Matrix FpElem k (n - k)}
    (sum : ∀ i, field a i = field b i + field c i * t) (j : Fin (n - k)) :
    (rowSum inside a vTr j : ZMod 509) = rowSum inside b vTr j + rowSum inside c vTr j * t := by
  rw [rowSumField, rowSumField, rowSumField, sum, add_mul, Finset.sum_mul]
  have terms : ∑ i : Fin k, field a (i.castLE inside) * (vTr[i][j].toNat : ZMod 509) =
      (∑ i : Fin k, field b (i.castLE inside) * (vTr[i][j].toNat : ZMod 509)) +
        ∑ i : Fin k, field c (i.castLE inside) * (vTr[i][j].toNat : ZMod 509) * t := by
    rw [← Finset.sum_add_distrib]
    refine Finset.sum_congr rfl fun i _ => ?_
    rw [sum]
    ring
  rw [terms]
  ring

theorem powerSum {a b c : Nat} (sum : (a + b) % 127 = c % 127) : (16 : ZMod 509) ^ a * 16 ^ b = 16 ^ c := by
  rw [← pow_add]
  have classes : 16 ^ (a + b) % 509 = 16 ^ c % 509 := by rw [powerClass, sum, ← powerClass]
  have here := (ZMod.natCast_eq_natCast_iff' _ _ 509).mpr classes
  push_cast at here
  exact here

end Linear

section Entries

variable {n : Nat}

theorem natField {a b : Nat} (same : a = b % 509) : (a : ZMod 509) = b := by
  rw [same]
  exact ZMod.natCast_mod b 509

theorem restrField {v : FzVec n} (small : Redundant v) (i : Fin n) :
    field (convertRestrVecToFp v) i = 16 ^ v[i].toNat := by
  have entry : (convertRestrVecToFp v)[i] = restrToVal v[i].toUInt16 := Vector.getElem_map _ _
  rw [field, entry, natField (restrNat (small i))]
  push_cast
  rfl

theorem pointwiseField (a b : FpVec n) (small : ∀ i : Fin n, a[i].toNat < 512 ∧ b[i].toNat < 512) (i : Fin n) :
    field (fpVecByFpVecPointwise a b) i = field a i * field b i := by
  have entry : (fpVecByFpVecPointwise a b)[i] = fpredDouble (a[i].toUInt32 * b[i].toUInt32) := by
    rw [fpVecByFpVecPointwise, readFin, Vector.getElem_ofFn]
  have product : (a[i].toUInt32 * b[i].toUInt32).toNat = a[i].toNat * b[i].toNat := by
    rw [UInt32.toNat_mul]
    have bound : a[i].toNat * b[i].toNat ≤ 511 * 511 :=
      Nat.mul_le_mul (Nat.le_of_lt_succ (small i).1) (Nat.le_of_lt_succ (small i).2)
    exact Nat.mod_eq_of_lt (by change a[i].toNat * b[i].toNat < 2 ^ 32; omega)
  rw [field, entry, natField (fpredDoubleNat _), product]
  push_cast
  rfl

theorem scaledNat {u r c : UInt16} (own : u.toNat < 509) (power : r.toNat < 509) (low : c.toNat < 512) :
    (fpredDouble (u.toUInt32 + r.toUInt32 * c.toUInt32)).toNat = (u.toNat + r.toNat * c.toNat) % 509 := by
  have bound : r.toNat * c.toNat ≤ 508 * 511 := Nat.mul_le_mul (Nat.le_of_lt_succ power) (Nat.le_of_lt_succ low)
  rw [fpredDoubleNat, UInt32.toNat_add, UInt32.toNat_mul, UInt16.toNat_toUInt32, UInt16.toNat_toUInt32,
    UInt16.toNat_toUInt32, Nat.mod_eq_of_lt (a := r.toNat * c.toNat) (by omega), Nat.mod_eq_of_lt (b := 2 ^ 32) (by omega)]

theorem scaledEntry {e : FzVec n} (small : Redundant e) {chall1 : FpElem} (low : chall1.toNat < 512) {u : FpVec n}
    (inU : Reduced u) (i : Fin n) :
    (fpVecByRestrVecScaled e chall1 u)[i].toNat < 509 ∧
      field (fpVecByRestrVecScaled e chall1 u) i = field u i + 16 ^ e[i].toNat * (chall1.toNat : ZMod 509) := by
  have entry : (fpVecByRestrVecScaled e chall1 u)[i] =
      fpredDouble (u[i].toUInt32 + (restrToVal e[i].toUInt16).toUInt32 * chall1.toUInt32) := by
    rw [fpVecByRestrVecScaled, readFin, Vector.getElem_ofFn]
  have power := restrNat (small i)
  generalize restrToVal e[i].toUInt16 = r at power entry
  have powerSmall : r.toNat < 509 := by
    rw [power]
    exact Nat.mod_lt _ (by decide)
  have reduced := scaledNat (inU i) powerSmall low
  rw [← entry] at reduced
  refine ⟨?_, ?_⟩
  · rw [reduced]
    exact Nat.mod_lt _ (by decide)
  · unfold field
    rw [natField reduced]
    push_cast
    rw [natField power]
    push_cast
    rfl

theorem fpDzNormSame (v : FpVec n) : fpDzNorm v = v := by
  ext i inside
  rw [fpDzNorm, Vector.getElem_map]
  rfl

theorem fpredOppositeNat {x : FpElem} (small : x.toNat < 509) : (fpredOpposite x).toNat = (509 - x.toNat) % 509 := by
  have le : x.toUInt64 ≤ 509 := UInt64.le_iff_toNat_le.mpr (by rw [UInt16.toNat_toUInt64]; exact Nat.le_of_lt small)
  have difference : (509 - x.toUInt64).toNat = 509 - x.toNat := by
    rw [UInt64.toNat_sub_of_le _ _ le, UInt16.toNat_toUInt64]
    rfl
  rw [fpredOpposite, fpredSingleNat (by rw [difference]; omega), difference]

theorem syndromeNat {synd s c : UInt16} (own : synd.toNat < 509) (secret : s.toNat < 509) (low : c.toNat < 512) :
    (fpredSingle (synd.toUInt64 + fpredOpposite (fpredDouble (s.toUInt32 * c.toUInt32)))).toUInt16.toNat =
      (synd.toNat + (509 - s.toNat * c.toNat % 509) % 509) % 509 := by
  have bound : s.toNat * c.toNat ≤ 508 * 511 := Nat.mul_le_mul (Nat.le_of_lt_succ secret) (Nat.le_of_lt_succ low)
  have scaled : (fpredDouble (s.toUInt32 * c.toUInt32)).toNat = s.toNat * c.toNat % 509 := by
    rw [fpredDoubleNat, UInt32.toNat_mul, UInt16.toNat_toUInt32, UInt16.toNat_toUInt32,
      Nat.mod_eq_of_lt (b := 2 ^ 32) (by omega)]
  have opposite := fpredOppositeNat (x := fpredDouble (s.toUInt32 * c.toUInt32)) (by rw [scaled]; omega)
  rw [scaled] at opposite
  have total : (synd.toUInt64 + fpredOpposite (fpredDouble (s.toUInt32 * c.toUInt32))).toNat =
      synd.toNat + (509 - s.toNat * c.toNat % 509) % 509 := by
    rw [UInt64.toNat_add, opposite, UInt16.toNat_toUInt64]
    omega
  rw [UInt64.toNat_toUInt16, fpredSingleNat (by rw [total]; omega), total]
  omega

theorem syndromeEntry {synd s : FpVec n} (inSynd : Reduced synd) (inS : Reduced s) {chall1 : FpElem}
    (low : chall1.toNat < 512) (j : Fin n) :
    (fpSyndMinusFpVecScaled synd chall1 s)[j].toNat < 509 ∧
      field (fpSyndMinusFpVecScaled synd chall1 s) j = field synd j - field s j * (chall1.toNat : ZMod 509) := by
  have entry : (fpSyndMinusFpVecScaled synd chall1 s)[j] = (fpredSingle (synd[j].toUInt64 +
      fpredOpposite (fpredDouble (s[j].toUInt32 * chall1.toUInt32)))).toUInt16 := by
    rw [fpSyndMinusFpVecScaled, readFin, Vector.getElem_ofFn]
    rfl
  have stored := syndromeNat (inSynd j) (inS j) low
  rw [← entry] at stored
  refine ⟨?_, ?_⟩
  · rw [stored]
    exact Nat.mod_lt _ (by decide)
  · have below := Nat.mod_lt (s[j].toNat * chall1.toNat) (show 0 < 509 by decide)
    unfold field
    rw [natField stored]
    push_cast
    rw [ZMod.natCast_mod, Nat.cast_sub (Nat.le_of_lt below), ZMod.natCast_mod]
    push_cast
    have zero : (509 : ZMod 509) = 0 := ZMod.natCast_self 509
    rw [zero]
    ring

end Entries

section Response

variable {m n k : Nat} {wMat : Matrix FzElem m (n - m)} {g g' : FzVec m}

theorem wordDifference (fold : m % 4 ≤ 1) (inW : MatrixInGroup wMat) (inG : InGroup g) (inG' : InGroup g') :
    let e := fzDzNorm (Build.portable.fzInfWByFzMatrix g wMat)
    let e' := fzDzNorm (Build.portable.fzInfWByFzMatrix g' wMat)
    convertRestrVecToFp (Build.portable.fzInfWByFzMatrix (fzDzNorm (fzVecSub g g')) wMat) =
      convertRestrVecToFp (fzVecSub e e' : FzVec n) := by
  intro e e'
  have word := Build.portable.word fold inG inW
  have word' := Build.portable.word fold inG' inW
  have inE : InGroup (e : FzVec n) := fzDzNormInGroup word.1
  have inE' : InGroup (e' : FzVec n) := fzDzNormInGroup word'.1
  have subRedundant := fzVecSubRedundant inG.redundant inG'.redundant
  have inV : InGroup (fzDzNorm (fzVecSub g g')) := fzDzNormInGroup subRedundant
  have opened := Build.portable.word fold inV inW
  refine sameRestr opened.1 (fzVecSubRedundant inE.redundant inE'.redundant) fun i => ?_
  have classes : ∀ i : Fin m, ((fzDzNorm (fzVecSub g g'))[i].toNat + g'[i].toNat) % 127 = g[i].toNat % 127 := by
    intro i
    have sub := (fzVecSubNat inG.redundant inG'.redundant i).2
    rw [fzDzNormAt subRedundant, Nat.mod_add_mod, sub]
  have linear := @wordLinear m n _ _ _ wMat classes i
  have here := fzDzNormAt word.1 i
  have there := fzDzNormAt word'.1 i
  have difference := (fzVecSubNat inE.redundant inE'.redundant i).2
  have value := word.2 i
  have value' := word'.2 i
  have total := opened.2 i
  change e[i].toNat = _ at here
  change e'[i].toNat = _ at there
  omega

variable {vTr : Matrix FpElem k (n - k)} {inside : k ≤ n} {uPrime : FpVec n} {chall1 : FpElem} {s : FpVec (n - k)}

theorem rowsField (room : 508 + k * (508 * 508) < 2 ^ 25) {u : FpVec n} (inU : Reduced u) (inV : MatrixReduced vTr)
    (j : Fin (n - k)) : field (Build.portable.fpVecByFpMatrix inside u vTr) j = rowSum inside u vTr j := by
  unfold field
  exact natField (Build.portable.rows inside room inU inV j)

theorem responseRestores (fold : m % 4 ≤ 1) (room : 508 + k * (508 * 508) < 2 ^ 25) (inW : MatrixInGroup wMat)
    (inV : MatrixReduced vTr) (inG : InGroup g) (inG' : InGroup g') (inU : Reduced uPrime) (low : chall1.toNat < 512)
    (syndrome : ∀ j : Fin (n - k), s[j].toNat = rowSum inside
      (convertRestrVecToFp (fzDzNorm (Build.portable.fzInfWByFzMatrix g wMat))) vTr j % 509) :
    let e := fzDzNorm (Build.portable.fzInfWByFzMatrix g wMat)
    let e' := fzDzNorm (Build.portable.fzInfWByFzMatrix g' wMat)
    let v := convertRestrVecToFp (Build.portable.fzInfWByFzMatrix (fzDzNorm (fzVecSub g g')) wMat)
    let yPrime := fpVecByFpVecPointwise v (fpVecByRestrVecScaled e' chall1 uPrime)
    fpSyndMinusFpVecScaled (Build.portable.fpVecByFpMatrix inside yPrime vTr) chall1 s =
      Build.portable.fpVecByFpMatrix inside
        (fpVecByFpVecPointwise (convertRestrVecToFp (fzVecSub e e')) uPrime) vTr := by
  intro e e' v yPrime
  have word := Build.portable.word fold inG inW
  have word' := Build.portable.word fold inG' inW
  have inE : InGroup (e : FzVec n) := fzDzNormInGroup word.1
  have inE' : InGroup (e' : FzVec n) := fzDzNormInGroup word'.1
  have redundant := fzVecSubRedundant inE.redundant inE'.redundant
  have same : v = convertRestrVecToFp (fzVecSub e e') := wordDifference fold inW inG inG'
  have scaled := scaledEntry inE'.redundant low inU
  have small : ∀ {x : FpVec n}, Reduced x → ∀ i : Fin n, x[i].toNat < 512 := fun inX i =>
    Nat.lt_trans (inX i) (by decide)
  have inVec := restrReduced redundant
  have response : ∀ i, field yPrime i = field (fpVecByFpVecPointwise (convertRestrVecToFp (fzVecSub e e')) uPrime) i +
      field (convertRestrVecToFp e) i * (chall1.toNat : ZMod 509) := by
    intro i
    have power := powerSum (fzVecSubNat inE.redundant inE'.redundant i).2
    change field (fpVecByFpVecPointwise v (fpVecByRestrVecScaled e' chall1 uPrime)) i = _
    rw [same, pointwiseField _ _ fun i => ⟨small inVec i, small (fun i => (scaled i).1) i⟩, (scaled i).2,
      pointwiseField _ _ fun i => ⟨small inVec i, small inU i⟩, restrField redundant, restrField inE.redundant, ← power]
    ring
  have linear := @rowSumLinear n k inside _ _ _ _ vTr response
  have inY : Reduced yPrime := pointwiseReduced _ _
  have inRows : ∀ {u : FpVec n}, Reduced u → Reduced (Build.portable.fpVecByFpMatrix inside u vTr) := by
    intro u inU j
    rw [Build.portable.rows inside room inU inV]
    exact Nat.mod_lt _ (by decide)
  have inS : Reduced s := fun j => by
    rw [syndrome]
    exact Nat.mod_lt _ (by decide)
  ext j bound
  have restored := syndromeEntry (inRows inY) inS low ⟨j, bound⟩
  have signed := inRows (pointwiseReduced (convertRestrVecToFp (fzVecSub e e')) uPrime) ⟨j, bound⟩
  have secret : field s ⟨j, bound⟩ = _ := natField (syndrome ⟨j, bound⟩)
  have fields : field (fpSyndMinusFpVecScaled (Build.portable.fpVecByFpMatrix inside yPrime vTr) chall1 s) ⟨j, bound⟩ =
      field (Build.portable.fpVecByFpMatrix inside
        (fpVecByFpVecPointwise (convertRestrVecToFp (fzVecSub e e')) uPrime) vTr) ⟨j, bound⟩ := by
    rw [restored.2, rowsField room inY inV, rowsField room (pointwiseReduced _ _) inV, linear, secret]
    exact add_sub_cancel_right _ _
  have classes := (ZMod.natCast_eq_natCast_iff' _ _ 509).mp fields
  rwa [Nat.mod_eq_of_lt restored.1, Nat.mod_eq_of_lt signed] at classes

end Response

end Armor.Cross
