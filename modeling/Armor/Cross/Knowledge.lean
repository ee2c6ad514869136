import Armor.Cross.Canonical
import Armor.Cross.Completeness
import Mathlib.Algebra.Field.ZMod
import Mathlib.Tactic.NormNum.Prime

/-! What the responses of one round tell about the key. Two of them, to different challenges on one
commitment, give a secret that solves the syndrome equation of the public key. One alone gives nothing:
whatever the key, every response comes from exactly one choice of the round's randomness. -/
namespace Armor.Cross

variable (p : Parameters) (build : Build)

@[ext]
structure Mask where
  eGBarPrime : FzVec p.m
  uPrime : FpVec p.n
  inGroup : InGroup eGBarPrime
  reduced : Reduced uPrime

@[ext]
structure Opened where
  vGBar : FzVec p.m
  y : FpVec p.n
  inGroup : InGroup vGBar
  reduced : Reduced y

variable {p}

def maskWord (pk : ExpandedPk p) (mask : Mask p) : FzVec p.n := fzDzNorm (build.fzInfWByFzMatrix mask.eGBarPrime pk.wMat)

def maskRound (sk : ExpandedSk p) (mask : Mask p) : Round p :=
  let vGBar := fzDzNorm (fzVecSub sk.eGBar mask.eGBarPrime)
  let eBarPrime := maskWord build sk.toExpandedPk mask
  let u := fpVecByFpVecPointwise (convertRestrVecToFp (fzVecSub sk.eBar eBarPrime)) mask.uPrime
  ⟨eBarPrime, mask.uPrime, vGBar, fpDzNorm (build.fpVecByFpMatrix p.rowsInside u sk.vTr)⟩

def maskResponse (pk : ExpandedPk p) (chall1 : FpElem) (mask : Mask p) : FpVec p.n :=
  fpDzNorm (fpVecByRestrVecScaled (maskWord build pk mask) chall1 mask.uPrime)

def openedSyndrome (pk : ExpandedPk p) (s : FpVec (p.n - p.k)) (chall1 : FpElem) (y : FpVec p.n) (vGBar : FzVec p.m) :
    FpVec (p.n - p.k) :=
  let yPrime := fpVecByFpVecPointwise (convertRestrVecToFp (build.fzInfWByFzMatrix vGBar pk.wMat)) y
  fpDzNorm (fpSyndMinusFpVecScaled (fpDzNorm (build.fpVecByFpMatrix p.rowsInside yPrime pk.vTr)) chall1 s)

def sampledMask (shake : Shake) (seed : Block p.seedLength) (salt : Block p.saltLength) (i : Nat) : Mask p :=
  let eGBarPrime := csprngFzInfW p shake (csprngInitialize (SeedTree.csprngInput p seed salt) (roundCsprngDsc p i))
  ⟨eGBarPrime.1, (csprngFpVec p shake eGBarPrime.2).1, csprngFzInfWInGroup p shake _, csprngFpVecReduced p shake _⟩

theorem signRoundMask (shake : Shake) (sk : ExpandedSk p) (salt : Block p.saltLength) (seed : Block p.seedLength) (i : Nat) :
    signRound p shake build sk salt seed i = maskRound build sk (sampledMask shake seed salt i) := rfl

theorem responseSyndromeOpened (o : Opening p) (i : Nat) (y : FpVec p.n) (vGBar : FzVec p.m) :
    responseSyndrome p build o i y vGBar = openedSyndrome build o.toExpandedPk o.s (chall1At p o.chall1 i) y vGBar := rfl

section Residues

variable {n : Nat}

theorem syndromeResidues {synd s s' : FpVec n} {chall1 : FpElem} (low : chall1.toNat < 512)
    (small : ∀ j : Fin n, s[j].toNat < 512) (small' : ∀ j : Fin n, s'[j].toNat < 512)
    (same : ∀ j : Fin n, s[j].toNat % 509 = s'[j].toNat % 509) :
    fpSyndMinusFpVecScaled synd chall1 s = fpSyndMinusFpVecScaled synd chall1 s' := by
  have product : ∀ x : UInt16, x.toNat < 512 →
      (fpredDouble (x.toUInt32 * chall1.toUInt32)).toNat = x.toNat % 509 * chall1.toNat % 509 := by
    intro x inside
    have bound : x.toNat * chall1.toNat ≤ 511 * 511 := Nat.mul_le_mul (Nat.le_of_lt_succ inside) (Nat.le_of_lt_succ low)
    rw [fpredDoubleNat, UInt32.toNat_mul, UInt16.toNat_toUInt32, UInt16.toNat_toUInt32,
      Nat.mod_eq_of_lt (b := 2 ^ 32) (by omega), Nat.mod_mul_mod]
  have scaled : ∀ j : Fin n, fpredDouble (s[j].toUInt32 * chall1.toUInt32) = fpredDouble (s'[j].toUInt32 * chall1.toUInt32) := by
    intro j
    refine UInt16.toNat_inj.mp ?_
    rw [product _ (small j), product _ (small' j), same j]
  refine Vector.ext fun j inside => ?_
  rw [fpSyndMinusFpVecScaled, fpSyndMinusFpVecScaled, Vector.getElem_ofFn, Vector.getElem_ofFn, scaled ⟨j, inside⟩]

def residues (s : FpVec n) : FpVec n := Vector.ofFn fun j => UInt16.ofNat (s[j].toNat % 509)

theorem residuesNat (s : FpVec n) (j : Fin n) : (residues s)[j].toNat = s[j].toNat % 509 := by
  rw [residues, readFin, Vector.getElem_ofFn, UInt16.toNat_ofNat']
  have below := Nat.mod_lt s[j].toNat (show 0 < 509 by decide)
  exact Nat.mod_eq_of_lt (by omega)

theorem residuesReduced (s : FpVec n) : Reduced (residues s) := by
  intro j
  rw [residuesNat]
  exact Nat.mod_lt _ (by decide)

theorem syndromeField {synd s : FpVec n} (inSynd : Reduced synd) (small : ∀ j : Fin n, s[j].toNat < 512) {chall1 : FpElem}
    (low : chall1.toNat < 512) (j : Fin n) :
    field (fpSyndMinusFpVecScaled synd chall1 s) j = field synd j - field s j * (chall1.toNat : ZMod 509) := by
  have reduced := residuesReduced s
  have same := @syndromeResidues n synd s (residues s) chall1 low small (fun j => Nat.lt_trans (reduced j) (by decide))
    fun j => by rw [residuesNat, Nat.mod_mod]
  have own : field (residues s) j = field s j := natField (residuesNat s j)
  rw [same, (syndromeEntry inSynd reduced low j).2, own]

end Residues

section Extraction

variable {m n k : Nat} {wMat : Matrix FzElem m (n - m)} {vTr : Matrix FpElem k (n - k)} {inside : k ≤ n}
  {g v : FzVec m} {u : FpVec n} {s : FpVec (n - k)} {chall1 : FpElem}

def fzVecSum (a b : FzVec m) : FzVec m := Vector.ofFn fun i => UInt8.ofNat ((a[i].toNat + b[i].toNat) % 127)

theorem fzVecSumNat (a b : FzVec m) (i : Fin m) : (fzVecSum a b)[i].toNat = (a[i].toNat + b[i].toNat) % 127 := by
  rw [fzVecSum, readFin, Vector.getElem_ofFn, UInt8.toNat_ofNat']
  have below := Nat.mod_lt (a[i].toNat + b[i].toNat) (show 0 < 127 by decide)
  exact Nat.mod_eq_of_lt (by omega)

theorem fzVecSumInGroup (a b : FzVec m) : InGroup (fzVecSum a b) := by
  intro i
  rw [fzVecSumNat]
  exact Nat.mod_lt _ (by decide)

def wordField (g : FzVec m) (wMat : Matrix FzElem m (n - m)) : FpVec n :=
  convertRestrVecToFp (fzDzNorm (Build.portable.fzInfWByFzMatrix g wMat))

theorem wordFieldProduct (fold : m % 4 ≤ 1) (inW : MatrixInGroup wMat) (inG : InGroup g) (inV : InGroup v) (i : Fin n) :
    (16 : ZMod 509) ^ (Build.portable.fzInfWByFzMatrix v wMat)[i].toNat *
        16 ^ (fzDzNorm (Build.portable.fzInfWByFzMatrix g wMat))[i].toNat =
      field (wordField (fzVecSum v g) wMat) i := by
  have inSum := fzVecSumInGroup v g
  have word := Build.portable.word fold inG inW
  have word' := Build.portable.word fold inV inW
  have whole := Build.portable.word fold inSum inW
  have linear := @wordLinear m n v g (fzVecSum v g) wMat (fun i => by rw [fzVecSumNat, Nat.mod_mod]) i
  have normed := fzDzNormAt word.1 i
  have normed' := fzDzNormAt whole.1 i
  have class_ := word.2 i
  have class' := word'.2 i
  have class'' := whole.2 i
  rw [wordField, restrField (fzDzNormInGroup whole.1).redundant]
  exact powerSum (by omega)

theorem syndromeLine (fold : m % 4 ≤ 1) (room : 508 + k * (508 * 508) < 2 ^ 25) (inW : MatrixInGroup wMat)
    (inV : MatrixReduced vTr) (inG : InGroup g) (opened : InGroup v) (inU : Reduced u) (low : chall1.toNat < 512)
    (small : ∀ j : Fin (n - k), s[j].toNat < 512) (j : Fin (n - k)) :
    let e := fzDzNorm (Build.portable.fzInfWByFzMatrix g wMat)
    let vField := convertRestrVecToFp (Build.portable.fzInfWByFzMatrix v wMat)
    let yPrime := fpVecByFpVecPointwise vField (fpVecByRestrVecScaled e chall1 u)
    field (fpSyndMinusFpVecScaled (Build.portable.fpVecByFpMatrix inside yPrime vTr) chall1 s) j =
      rowSum inside (fpVecByFpVecPointwise vField u) vTr j +
        (rowSum inside (wordField (fzVecSum v g) wMat) vTr j - field s j) * (chall1.toNat : ZMod 509) := by
  intro e vField yPrime
  have word := Build.portable.word fold inG inW
  have word' := Build.portable.word fold opened inW
  have inE : InGroup (e : FzVec n) := fzDzNormInGroup word.1
  have scaled := scaledEntry inE.redundant low inU
  have below : ∀ {x : FpVec n}, Reduced x → ∀ i : Fin n, x[i].toNat < 512 := fun inX i =>
    Nat.lt_trans (inX i) (by decide)
  have inVec := restrReduced word'.1
  have response : ∀ i, field yPrime i = field (fpVecByFpVecPointwise vField u) i +
      field (wordField (fzVecSum v g) wMat) i * (chall1.toNat : ZMod 509) := by
    intro i
    have product := wordFieldProduct fold inW inG opened i
    change field (fpVecByFpVecPointwise vField (fpVecByRestrVecScaled e chall1 u)) i = _
    rw [pointwiseField _ _ fun i => ⟨below inVec i, below (fun i => (scaled i).1) i⟩, (scaled i).2,
      pointwiseField _ _ fun i => ⟨below inVec i, below inU i⟩, restrField word'.1, ← product]
    ring
  have linear := @rowSumLinear n k inside _ _ _ _ vTr response
  have inY : Reduced yPrime := pointwiseReduced _ _
  have inRows : Reduced (Build.portable.fpVecByFpMatrix inside yPrime vTr) := by
    intro j
    rw [Build.portable.rows inside room inY inV]
    exact Nat.mod_lt _ (by decide)
  rw [syndromeField inRows small low, rowsField room inY inV, linear]
  ring

instance primeField : Fact (Nat.Prime 509) := ⟨by norm_num⟩

theorem extracted (fold : m % 4 ≤ 1) (room : 508 + k * (508 * 508) < 2 ^ 25) (inW : MatrixInGroup wMat)
    (inV : MatrixReduced vTr) (inG : InGroup g) (opened : InGroup v) (inU : Reduced u) {chall1' : FpElem}
    (low : chall1.toNat < 512) (low' : chall1'.toNat < 512) (differ : chall1.toNat % 509 ≠ chall1'.toNat % 509)
    (small : ∀ j : Fin (n - k), s[j].toNat < 512)
    (same : let e := fzDzNorm (Build.portable.fzInfWByFzMatrix g wMat)
      let vField := convertRestrVecToFp (Build.portable.fzInfWByFzMatrix v wMat)
      fpSyndMinusFpVecScaled (Build.portable.fpVecByFpMatrix inside
          (fpVecByFpVecPointwise vField (fpVecByRestrVecScaled e chall1 u)) vTr) chall1 s =
        fpSyndMinusFpVecScaled (Build.portable.fpVecByFpMatrix inside
          (fpVecByFpVecPointwise vField (fpVecByRestrVecScaled e chall1' u)) vTr) chall1' s) (j : Fin (n - k)) :
    s[j].toNat % 509 = rowSum inside (wordField (fzVecSum v g) wMat) vTr j % 509 := by
  have here := @syndromeLine m n k wMat vTr inside g v u s chall1 fold room inW inV inG opened inU low small j
  have there := @syndromeLine m n k wMat vTr inside g v u s chall1' fold room inW inV inG opened inU low' small j
  have lines := here.symm.trans ((congrArg (fun x => field x j) same).trans there)
  have apart : (chall1.toNat : ZMod 509) - chall1'.toNat ≠ 0 := by
    intro zero
    exact differ ((ZMod.natCast_eq_natCast_iff' _ _ 509).mp (sub_eq_zero.mp zero))
  have slope : ((rowSum inside (wordField (fzVecSum v g) wMat) vTr j : ZMod 509) - field s j) *
      ((chall1.toNat : ZMod 509) - chall1'.toNat) = 0 := by
    rw [mul_sub]
    exact sub_eq_zero.mpr (add_left_cancel lines)
  have solved := sub_eq_zero.mp ((mul_eq_zero.mp slope).resolve_right apart)
  exact (ZMod.natCast_eq_natCast_iff' _ _ 509).mp solved.symm

end Extraction

def extractedKey (pk : ExpandedPk p) (mask : Mask p) (vGBar : FzVec p.m) : ExpandedSk p :=
  let eGBar := fzVecSum vGBar mask.eGBarPrime
  ⟨pk, fzDzNorm (build.fzInfWByFzMatrix eGBar pk.wMat), eGBar⟩

theorem openedSyndromeAgrees {pk : ExpandedPk p} (inW : MatrixInGroup pk.wMat) (inV : MatrixReduced pk.vTr)
    (s : FpVec (p.n - p.k)) (chall1 : FpElem) (mask : Mask p) {vGBar : FzVec p.m} (inG : InGroup vGBar) :
    openedSyndrome build pk s chall1 (maskResponse build pk chall1 mask) vGBar =
      fpSyndMinusFpVecScaled (Build.portable.fpVecByFpMatrix p.rowsInside (fpVecByFpVecPointwise
        (convertRestrVecToFp (Build.portable.fzInfWByFzMatrix vGBar pk.wMat)) (fpVecByRestrVecScaled
          (fzDzNorm (Build.portable.fzInfWByFzMatrix mask.eGBarPrime pk.wMat)) chall1 mask.uPrime)) pk.vTr) chall1 s := by
  unfold openedSyndrome maskResponse maskWord
  dsimp only
  rw [build.restrWord p.lastFold inG inW, build.normedWord p.lastFold mask.inGroup inW,
    build.rowsAgree p.rowsInside p.lazySum (pointwiseReduced _ _) inV, fpDzNormSame, fpDzNormSame, fpDzNormSame]

theorem twoResponsesReveal (category : Category) (shake : Shake) (build : Build) :
    let p := category.parameters
    ∀ (key : PublicKey p) (mask : Mask p) (vGBar : FzVec p.m) (chall1 chall1' : FpElem), InGroup vGBar →
      chall1.toNat < 509 → chall1'.toNat < 509 → chall1 ≠ chall1' →
      let pk := expandPk p shake key.seedPk
      let s := (unpackFpSyn p key.s).1
      openedSyndrome build pk s chall1 (maskResponse build pk chall1 mask) vGBar =
        openedSyndrome build pk s chall1' (maskResponse build pk chall1' mask) vGBar →
      HonestKey p (extractedKey build pk mask vGBar) (residues s) := by
  intro p key mask vGBar chall1 chall1' inG low low' differ pk s same
  have inW : MatrixInGroup pk.wMat := expandPkInGroup p shake key.seedPk
  have inV : MatrixReduced pk.vTr := expandPkReduced p shake key.seedPk
  have inSum := fzVecSumInGroup vGBar mask.eGBarPrime
  have word : (extractedKey build pk mask vGBar).eBar =
      fzDzNorm (Build.portable.fzInfWByFzMatrix (fzVecSum vGBar mask.eGBarPrime) pk.wMat) :=
    build.normedWord p.lastFold inSum inW
  rw [openedSyndromeAgrees build inW inV s chall1 mask inG, openedSyndromeAgrees build inW inV s chall1' mask inG] at same
  have apart : chall1.toNat % 509 ≠ chall1'.toNat % 509 := by
    rw [Nat.mod_eq_of_lt low, Nat.mod_eq_of_lt low']
    exact fun equal => differ (UInt16.toNat_inj.mp equal)
  refine ⟨⟨inW, inV, ?_, inSum⟩, word, fun j => ?_⟩
  · rw [word]
    exact fzDzNormInGroup (Build.portable.word p.lastFold inSum inW).1
  · rw [residuesNat, word]
    exact extracted p.lastFold p.lazySum inW inV mask.inGroup inG mask.reduced (Nat.lt_trans low (by decide))
      (Nat.lt_trans low' (by decide)) apart (fun j => unpacked9Range _ j) same j

def Mask.respond (sk : ExpandedSk p) (sound : SoundSk p sk) (chall1 : {x : FpElem // x.toNat < 512}) (mask : Mask p) :
    Opened p where
  vGBar := (maskRound build sk mask).vGBar
  y := maskResponse build sk.toExpandedPk chall1 mask
  inGroup := fzDzNormInGroup (fzVecSubRedundant sound.inG.redundant mask.inGroup.redundant)
  reduced := by
    have word := build.word p.lastFold mask.inGroup sound.inW
    unfold maskResponse
    rw [fpDzNormSame]
    exact fun i => (scaledEntry (fzDzNormInGroup word.1).redundant chall1.property mask.reduced i).1

section Hiding

variable {sk : ExpandedSk p} (sound : SoundSk p sk) (chall1 : {x : FpElem // x.toNat < 512})

theorem respondWord (mask : Mask p) (i : Fin p.m) :
    ((mask.respond build sk sound chall1).vGBar[i].toNat + mask.eGBarPrime[i].toNat) % 127 = sk.eGBar[i].toNat % 127 := by
  have normed := fzDzNormAt (fzVecSubRedundant sound.inG.redundant mask.inGroup.redundant) i
  have difference := (fzVecSubNat sound.inG.redundant mask.inGroup.redundant i).2
  change ((fzDzNorm (fzVecSub sk.eGBar mask.eGBarPrime))[i].toNat + mask.eGBarPrime[i].toNat) % 127 = _
  rw [normed, Nat.mod_add_mod, difference]

theorem respondField (mask : Mask p) (i : Fin p.n) :
    field (mask.respond build sk sound chall1).y i = field mask.uPrime i +
      16 ^ (maskWord build sk.toExpandedPk mask)[i].toNat * (chall1.val.toNat : ZMod 509) := by
  have word := build.word p.lastFold mask.inGroup sound.inW
  change field (maskResponse build sk.toExpandedPk chall1 mask) i = _
  unfold maskResponse
  rw [fpDzNormSame]
  exact (scaledEntry (fzDzNormInGroup word.1).redundant chall1.property mask.reduced i).2

theorem sameField {n : Nat} {a b : FpVec n} (inA : Reduced a) (inB : Reduced b) (same : ∀ i, field a i = field b i) : a = b := by
  refine Vector.ext fun i inside => ?_
  have classes := (ZMod.natCast_eq_natCast_iff' _ _ 509).mp (same ⟨i, inside⟩)
  rw [Nat.mod_eq_of_lt (inA ⟨i, inside⟩), Nat.mod_eq_of_lt (inB ⟨i, inside⟩)] at classes
  exact UInt16.toNat_inj.mp classes

theorem respondInjective : Function.Injective (Mask.respond build sk sound chall1) := by
  intro mask mask' same
  have word : mask.eGBarPrime = mask'.eGBarPrime := by
    refine Vector.ext fun i inside => ?_
    have here := respondWord build sound chall1 mask ⟨i, inside⟩
    have there := respondWord build sound chall1 mask' ⟨i, inside⟩
    rw [same] at here
    have low := mask.inGroup ⟨i, inside⟩
    have low' := mask'.inGroup ⟨i, inside⟩
    refine UInt8.toNat_inj.mp ?_
    change mask.eGBarPrime[(⟨i, inside⟩ : Fin p.m)].toNat = mask'.eGBarPrime[(⟨i, inside⟩ : Fin p.m)].toNat
    omega
  refine Mask.ext word (sameField mask.reduced mask'.reduced fun i => ?_)
  have here := respondField build sound chall1 mask i
  have there := respondField build sound chall1 mask' i
  have code : maskWord build sk.toExpandedPk mask = maskWord build sk.toExpandedPk mask' := by
    unfold maskWord
    rw [word]
  rw [same, code] at here
  exact add_right_cancel (here.symm.trans there)

def unmask (opened : Opened p) : Mask p :=
  let eGBarPrime := fzDzNorm (fzVecSub sk.eGBar opened.vGBar)
  let eBarPrime := fzDzNorm (build.fzInfWByFzMatrix eGBarPrime sk.wMat)
  { eGBarPrime := eGBarPrime
    uPrime := Vector.ofFn fun i => UInt16.ofNat
      ((opened.y[i].toNat + (509 - 16 ^ eBarPrime[i].toNat * chall1.val.toNat % 509)) % 509)
    inGroup := fzDzNormInGroup (fzVecSubRedundant sound.inG.redundant opened.inGroup.redundant)
    reduced := fun i => by
      rw [readFin, Vector.getElem_ofFn, UInt16.toNat_ofNat']
      omega }

theorem unmaskField (opened : Opened p) (i : Fin p.n) :
    field (unmask build sound chall1 opened).uPrime i = field opened.y i -
      16 ^ (maskWord build sk.toExpandedPk (unmask build sound chall1 opened))[i].toNat * (chall1.val.toNat : ZMod 509) := by
  have entry : (unmask build sound chall1 opened).uPrime[i].toNat = (opened.y[i].toNat + (509 -
      16 ^ (maskWord build sk.toExpandedPk (unmask build sound chall1 opened))[i].toNat * chall1.val.toNat % 509)) % 509 := by
    rw [unmask, readFin, Vector.getElem_ofFn, UInt16.toNat_ofNat']
    exact Nat.mod_eq_of_lt (Nat.lt_trans (Nat.mod_lt _ (by decide)) (by decide : 509 < 2 ^ 16))
  generalize (maskWord build sk.toExpandedPk (unmask build sound chall1 opened))[i].toNat = e at entry ⊢
  have below := Nat.mod_lt (16 ^ e * chall1.val.toNat) (show 0 < 509 by decide)
  unfold field
  rw [natField entry]
  push_cast
  rw [Nat.cast_sub (Nat.le_of_lt below), ZMod.natCast_mod]
  push_cast
  have zero : (509 : ZMod 509) = 0 := ZMod.natCast_self 509
  rw [zero]
  ring

theorem respondSurjective : Function.Surjective (Mask.respond build sk sound chall1) := by
  intro opened
  refine ⟨unmask build sound chall1 opened, Opened.ext ?_ (sameField (Mask.respond build sk sound chall1 _).reduced
    opened.reduced fun i => ?_)⟩
  · refine Vector.ext fun i inside => ?_
    have here := respondWord build sound chall1 (unmask build sound chall1 opened) ⟨i, inside⟩
    have normed := fzDzNormAt (fzVecSubRedundant sound.inG.redundant opened.inGroup.redundant) ⟨i, inside⟩
    have difference := (fzVecSubNat sound.inG.redundant opened.inGroup.redundant ⟨i, inside⟩).2
    have low := (Mask.respond build sk sound chall1 (unmask build sound chall1 opened)).inGroup ⟨i, inside⟩
    have low' := opened.inGroup ⟨i, inside⟩
    refine UInt8.toNat_inj.mp ?_
    change (Mask.respond build sk sound chall1 (unmask build sound chall1 opened)).vGBar[(⟨i, inside⟩ : Fin p.m)].toNat =
      opened.vGBar[(⟨i, inside⟩ : Fin p.m)].toNat
    change (_ + (fzDzNorm (fzVecSub sk.eGBar opened.vGBar))[(⟨i, inside⟩ : Fin p.m)].toNat) % 127 = _ at here
    omega
  · rw [respondField, unmaskField]
    ring

end Hiding

theorem honestSyndromeOpened {sk : ExpandedSk p} {s : FpVec (p.n - p.k)} (key : HonestKey p sk s)
    (chall1 : {x : FpElem // x.toNat < 512}) (mask : Mask p) :
    (maskRound build sk mask).sPrime = openedSyndrome build sk.toExpandedPk s chall1
      (mask.respond build sk key.toSoundSk chall1).y (mask.respond build sk key.toSoundSk chall1).vGBar := by
  have inG := (mask.respond build sk key.toSoundSk chall1).inGroup
  have restored := responseRestores p.lastFold p.lazySum key.inW key.inV key.inG mask.inGroup mask.reduced chall1.property
    (by
      have syndrome := key.syndrome
      rwa [key.word] at syndrome)
  refine Eq.trans ?_ (openedSyndromeAgrees build key.inW key.inV s chall1 mask inG).symm
  refine Eq.trans ?_ restored.symm
  unfold maskRound maskWord
  dsimp only
  rw [fpDzNormSame, build.normedWord p.lastFold mask.inGroup key.inW,
    build.rowsAgree p.rowsInside p.lazySum (pointwiseReduced _ _) key.inV, ← key.word]

theorem responsesHide (category : Category) (shake : Shake) (build : Build) :
    let p := category.parameters
    ∀ (seedSk : Block p.keypairSeedLength) (chall1 : {x : FpElem // x.toNat < 512}),
      let sk := expandSk p shake build seedSk
      let pk := (crossKeygen p shake build seedSk).2
      let respond := Mask.respond build sk (expandSkSound p shake build seedSk) chall1
      Function.Bijective respond ∧ ∀ mask : Mask p, (maskRound build sk mask).sPrime =
        openedSyndrome build (expandPk p shake pk.seedPk) (unpackFpSyn p pk.s).1 chall1 (respond mask).y (respond mask).vGBar := by
  intro p seedSk chall1 sk pk respond
  refine ⟨⟨respondInjective build _ chall1, respondSurjective build _ chall1⟩, fun mask => ?_⟩
  obtain ⟨s, published, key⟩ := keygenHonest p shake build seedSk
  have public_ : pk = _ := published
  have unpacked := unpackFpSynPacked p fun j => Nat.lt_trans (key.reduced p j) (by decide : 509 < 512)
  have agrees : sk = expandSk p shake .portable seedSk := expandSkAgrees p shake build seedSk
  rw [public_, unpacked]
  have key' : HonestKey p sk s := by
    rw [agrees]
    exact key
  exact honestSyndromeOpened build key' chall1 mask

theorem twoResponsesRevealHonest :
    let p := category1
    let shake : Shake := fun _ _ n => Block.zero n
    let sk := expandSk p shake .portable (Block.zero _)
    let key := (crossKeygen p shake .portable (Block.zero _)).2
    let mask := sampledMask shake (Block.zero p.seedLength) (Block.zero p.saltLength) 0
    HonestKey p (extractedKey .portable (expandPk p shake key.seedPk) mask (maskRound .portable sk mask).vGBar)
      (residues (unpackFpSyn p key.s).1) := by
  intro p shake sk key mask
  obtain ⟨s, published, honest⟩ := keygenHonest p shake .portable (Block.zero _)
  have public_ : key = _ := published
  have unpacked := unpackFpSynPacked p fun j => Nat.lt_trans (honest.reduced p j) (by decide : 509 < 512)
  have syndrome := fun chall1 => honestSyndromeOpened .portable honest chall1 mask
  have inG := (mask.respond .portable sk honest.toSoundSk ⟨0, by decide⟩).inGroup
  have same : openedSyndrome .portable (expandPk p shake key.seedPk) (unpackFpSyn p key.s).1 0
        (maskResponse .portable (expandPk p shake key.seedPk) 0 mask) (maskRound .portable sk mask).vGBar =
      openedSyndrome .portable (expandPk p shake key.seedPk) (unpackFpSyn p key.s).1 1
        (maskResponse .portable (expandPk p shake key.seedPk) 1 mask) (maskRound .portable sk mask).vGBar := by
    rw [public_, unpacked]
    exact (syndrome ⟨0, by decide⟩).symm.trans (syndrome ⟨1, by decide⟩)
  exact twoResponsesReveal .one shake .portable key mask _ 0 1 inG (by decide) (by decide) (by decide) same

end Armor.Cross
