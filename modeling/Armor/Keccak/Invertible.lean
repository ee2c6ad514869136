import Armor.Keccak.AssemblyFacts
import Armor.Keccak.Streaming
import Armor.Lib.Collision
import Armor.Lib.SelfInverse
import Mathlib.Algebra.Group.MinimalAxioms
import Mathlib.Data.Finite.Prod
import Mathlib.Tactic.Abel

/-! Keccak-f[1600] takes no two states to one. What an incremental instance has absorbed can then be
told from its state for ever after, up to an inner collision. -/
namespace Armor.Keccak

theorem shiftAmount {k : Nat} (small : k < 64) : ((UInt64.ofNat k).toBitVec % 64).toNat = k := by
  have whole : (64 : BitVec 64).toNat = 64 := rfl
  rw [BitVec.toNat_umod, UInt64.toNat_toBitVec, UInt64.toNat_ofNat_of_lt' (Nat.lt_trans small (by decide)), whole,
    Nat.mod_eq_of_lt small]

theorem rotlBit (w : UInt64) (n : Nat) {i : Nat} (inside : i < 64) :
    (rotl w n).toBitVec.getLsbD i = w.toBitVec.getLsbD ((i + (64 - n % 64)) % 64) := by
  have below := Nat.mod_lt n (show 0 < 64 by decide)
  rw [rotl, UInt64.toBitVec_or, UInt64.toBitVec_shiftLeft, UInt64.toBitVec_shiftRight, BitVec.getLsbD_or,
    BitVec.shiftLeft_eq', BitVec.ushiftRight_eq', BitVec.getLsbD_shiftLeft, BitVec.getLsbD_ushiftRight,
    shiftAmount below, shiftAmount (Nat.mod_lt _ (by decide))]
  by_cases zero : n % 64 = 0
  · have here : (i + (64 - n % 64)) % 64 = i := by omega
    have right : (64 - n % 64) % 64 + i = i := by omega
    rw [here, right, zero]
    simp [inside]
  · by_cases low : i < n % 64
    · have here : (i + (64 - n % 64)) % 64 = (64 - n % 64) % 64 + i := by omega
      rw [here]
      simp [low]
    · have here : (i + (64 - n % 64)) % 64 = i - n % 64 := by omega
      have beyond : 64 ≤ (64 - n % 64) % 64 + i := by omega
      rw [here, BitVec.getLsbD_of_ge _ _ beyond]
      simp [low, inside]

theorem bitsExt {w w' : UInt64} (same : ∀ i < 64, w.toBitVec.getLsbD i = w'.toBitVec.getLsbD i) : w = w' :=
  UInt64.toBitVec_inj.mp (BitVec.eq_of_getLsbD_eq same)

theorem rotlXor (w w' : UInt64) (n : Nat) : rotl (w ^^^ w') n = rotl w n ^^^ rotl w' n := by
  refine bitsExt fun i inside => ?_
  rw [UInt64.toBitVec_xor, BitVec.getLsbD_xor, rotlBit _ _ inside, rotlBit _ _ inside, rotlBit _ _ inside, UInt64.toBitVec_xor,
    BitVec.getLsbD_xor]

theorem rotlRotl (w : UInt64) (n n' : Nat) : rotl (rotl w n) n' = rotl w (n' + n) := by
  refine bitsExt fun i inside => ?_
  rw [rotlBit _ _ inside, rotlBit _ _ (Nat.mod_lt _ (by decide)), rotlBit _ _ inside]
  congr 1
  omega

theorem rotlWhole (w : UInt64) {n : Nat} (whole : n % 64 = 0) : rotl w n = w := by
  have turn : rotl w n = rotl w 0 := by rw [rotl, rotl, whole]
  rw [turn, Assembly.rotlZero]

theorem rotlInjective (n : Nat) : Function.Injective fun w => rotl w n := by
  intro w w' same
  have back : ∀ u, rotl (rotl u n) (64 - n % 64) = u := fun u => by
    rw [rotlRotl, rotlWhole u (by omega)]
  rw [← back w, ← back w']
  exact congrArg (fun u => rotl u (64 - n % 64)) same

def Xored := UInt64

instance xoredAdd : Add Xored := ⟨@HXor.hXor UInt64 UInt64 UInt64 _⟩

instance xoredZero : Zero Xored := ⟨(0 : UInt64)⟩

instance xoredNeg : Neg Xored := ⟨id⟩

theorem xoredAssoc (a b c : Xored) : a + b + c = a + (b + c) := UInt64.xor_assoc a b c

theorem xoredZeroAdd (a : Xored) : 0 + a = a := UInt64.zero_xor

theorem xoredNegAdd (a : Xored) : -a + a = 0 := UInt64.xor_self

theorem xoredComm (a b : Xored) : a + b = b + a := UInt64.xor_comm a b

instance xored : AddCommGroup Xored :=
  { AddGroup.ofLeftAxioms xoredAssoc xoredZeroAdd xoredNegAdd with add_comm := xoredComm }

abbrev Parities := Fin 5 → Xored

theorem parityTwice (c : Parities) : c + c = 0 := funext fun _ => UInt64.xor_self

theorem columnInside (x : Nat) : x % 5 < 5 := Nat.mod_lt x (by decide)

def columnAt (x : Nat) : Fin 5 := ⟨x % 5, columnInside x⟩

def columnRight : AddMonoid.End Parities where
  toFun c x := c (columnAt (x.val + 1))
  map_zero' := rfl
  map_add' _ _ := rfl

theorem rotlNone : rotl 0 1 = 0 := by decide

def turn : AddMonoid.End Parities where
  toFun c x := rotl (c x) 1
  map_zero' := funext fun _ => rotlNone
  map_add' c d := funext fun x => rotlXor (c x) (d x) 1

theorem columnsAround : columnRight ^ 5 = 1 := by
  have around : ∀ x : Fin 5, columnAt ((columnAt
    ((columnAt ((columnAt ((columnAt (x.val + 1)).val + 1)).val + 1)).val + 1)).val + 1) = x := by
    decide
  exact AddMonoidHom.ext fun c => funext fun x => congrArg c (around x)

theorem turnPow (n : Nat) (c : Parities) (x : Fin 5) : (turn ^ n) c x = rotl (c x) n := by
  induction n generalizing c with
  | zero => exact (Assembly.rotlZero _).symm
  | succ n ih =>
    rw [pow_succ]
    refine (ih (turn c)).trans ?_
    exact rotlRotl _ _ _

theorem turnAround : turn ^ 64 = 1 :=
  AddMonoidHom.ext fun c => funext fun x => (turnPow 64 c x).trans (rotlWhole _ rfl)

theorem columnTurn : Commute columnRight turn := rfl

def parityStep : AddMonoid.End Parities := 1 + columnRight ^ 4 + columnRight * turn

theorem columnsModulo (n : Nat) : columnRight ^ n = columnRight ^ (n % 5) := by
  conv_lhs => rw [← Nat.div_add_mod n 5, pow_add, pow_mul, columnsAround, one_pow, one_mul]

theorem parityStepPow : parityStep ^ 64 = 1 + columnRight + columnRight ^ 4 := by
  have apart : Commute (1 + columnRight ^ 4) (columnRight * turn) :=
    (Commute.one_left _).add_left (((Commute.refl columnRight).pow_left 4).mul_right (columnTurn.pow_left 4))
  have whole := SelfInverse.addPowTwo parityTwice apart 6
  rw [SelfInverse.addPowTwo parityTwice (Commute.one_left (columnRight ^ 4)) 6, columnTurn.mul_pow, ← pow_mul, one_pow,
    show 2 ^ 6 = 64 from rfl, turnAround, mul_one, columnsModulo (4 * 64), columnsModulo 64] at whole
  rw [parityStep, whole]
  rfl

theorem parityStepOrder : parityStep ^ 192 = 1 := by
  have squared : (parityStep ^ 64) ^ 2 = 1 + columnRight ^ 2 + columnRight ^ 3 := by
    have apart : Commute (1 + columnRight) (columnRight ^ 4) := ((Commute.one_left _).add_left ((Commute.refl _).pow_right 4))
    have whole := SelfInverse.addPowTwo parityTwice apart 1
    rw [SelfInverse.addPowTwo parityTwice (Commute.one_left columnRight) 1, one_pow, ← pow_mul, columnsModulo (4 * 2 ^ 1)] at whole
    rw [parityStepPow]
    exact whole
  have cancel : ∀ A : AddMonoid.End Parities, A + A = 0 := SelfInverse.twice parityTwice
  rw [show 192 = 64 * 2 + 64 from rfl, pow_add, pow_mul, squared, parityStepPow]
  simp only [mul_add, add_mul, one_mul, mul_one, ← pow_add, ← pow_succ, Nat.reduceAdd]
  rw [columnsModulo 6, columnsModulo 7]
  calc 1 + columnRight ^ 2 + columnRight ^ 3 + (columnRight + columnRight ^ 3 + columnRight ^ 4) +
        (columnRight ^ 4 + columnRight ^ (6 % 5) + columnRight ^ (7 % 5))
      = 1 + (columnRight + columnRight) + (columnRight ^ 2 + columnRight ^ 2) + (columnRight ^ 3 + columnRight ^ 3) +
          (columnRight ^ 4 + columnRight ^ 4) := by
        rw [show 6 % 5 = 1 from rfl, show 7 % 5 = 2 from rfl, pow_one]
        abel
    _ = 1 := by rw [cancel, cancel, cancel, cancel, add_zero, add_zero, add_zero, add_zero]

theorem parityStepInjective : Function.Injective parityStep := SelfInverse.injectiveOfPow parityStepOrder

theorem laneOfLanes (g : Nat → Nat → UInt64) (x y : Nat) : lane (ofLanes g) x y = g (x % 5) (y % 5) := by
  have column : (x % 5 + 5 * (y % 5)) % 5 = x % 5 := by omega
  have row : (x % 5 + 5 * (y % 5)) / 5 = y % 5 := by omega
  have outer : lane (ofLanes g) x y = g ((x % 5 + 5 * (y % 5)) % 5) ((x % 5 + 5 * (y % 5)) / 5) := Vector.getElem_ofFn _
  rw [outer, column, row]

theorem lanesExt {a b : Lanes} (same : ∀ x y, lane a x y = lane b x y) : a = b := by
  refine Vector.ext fun i inside => ?_
  have here := same (i % 5) (i / 5)
  rw [Assembly.laneHere a ⟨i, inside⟩, Assembly.laneHere b ⟨i, inside⟩] at here
  exact here

theorem laneModulo (a : Lanes) (x y : Nat) : lane a (x % 5) (y % 5) = lane a x y := by
  rw [lane, lane]
  exact congrArg a.get (Fin.ext (by simp only [Nat.mod_mod]))

def parity (a : Lanes) (x : Fin 5) : UInt64 := lane a x 0 ^^^ lane a x 1 ^^^ lane a x 2 ^^^ lane a x 3 ^^^ lane a x 4

def effect (c : Fin 5 → UInt64) (x : Nat) : UInt64 := c (columnAt (x + 4)) ^^^ rotl (c (columnAt (x + 1))) 1

theorem effectAt (c : Fin 5 → UInt64) (x : Fin 5) : parityStep c x = c x ^^^ effect c x := by
  have fourth : ∀ x : Fin 5, columnAt ((columnAt ((columnAt ((columnAt (x.val + 1)).val + 1)).val + 1)).val + 1) =
    columnAt (x.val + 4) := by
    decide
  rw [effect, ← fourth, ← UInt64.xor_assoc]
  rfl

theorem thetaLane (a : Lanes) (x y : Nat) : lane (theta a) x y = lane a x y ^^^ effect (parity a) (x % 5) := by
  have step := laneOfLanes (fun x y => lane a x y ^^^ effect (parity a) x) x y
  rw [laneModulo] at step
  refine Eq.trans ?_ step
  have columns : ∀ x : Fin 5, (Vector.ofFn fun x : Fin 5 => lane a x 0 ^^^ lane a x 1 ^^^ lane a x 2 ^^^ lane a x 3 ^^^
      lane a x 4).get x = parity a x := fun x => Vector.getElem_ofFn _
  rw [theta]
  simp only [columns]
  rfl

theorem fiveCancel (l0 l1 l2 l3 l4 e : UInt64) :
    (l0 ^^^ e) ^^^ (l1 ^^^ e) ^^^ (l2 ^^^ e) ^^^ (l3 ^^^ e) ^^^ (l4 ^^^ e) = l0 ^^^ l1 ^^^ l2 ^^^ l3 ^^^ l4 ^^^ e := by
  calc (l0 ^^^ e) ^^^ (l1 ^^^ e) ^^^ (l2 ^^^ e) ^^^ (l3 ^^^ e) ^^^ (l4 ^^^ e)
      = l0 ^^^ l1 ^^^ l2 ^^^ l3 ^^^ l4 ^^^ e ^^^ ((e ^^^ e) ^^^ (e ^^^ e)) := by ac_rfl
    _ = l0 ^^^ l1 ^^^ l2 ^^^ l3 ^^^ l4 ^^^ e := by rw [UInt64.xor_self, UInt64.xor_zero]

theorem thetaParity (a : Lanes) : parity (theta a) = parityStep (parity a) := by
  funext x
  rw [effectAt, parity, thetaLane, thetaLane, thetaLane, thetaLane, thetaLane, fiveCancel, Nat.mod_eq_of_lt x.isLt]
  rfl

theorem thetaInjective : Function.Injective theta := by
  intro a b same
  have parities : parity a = parity b := parityStepInjective (by rw [← thetaParity, ← thetaParity, same])
  refine lanesExt fun x y => ?_
  have here : lane (theta a) x y = lane (theta b) x y := by rw [same]
  rwa [thetaLane, thetaLane, parities, UInt64.xor_left_inj] at here

theorem rhoInjective : Function.Injective rho := by
  intro a b same
  refine Vector.ext fun i inside => ?_
  have here : (rho a)[i] = (rho b)[i] := by rw [same]
  simp only [rho, Vector.getElem_ofFn] at here
  exact rotlInjective _ here

theorem piLane (a : Lanes) (x y : Nat) : lane (pi a) x y = lane a (x + 3 * y) x := by
  rw [pi, laneOfLanes, lane, lane]
  exact congrArg a.get (Fin.ext (by simp only; omega))

theorem piInjective : Function.Injective pi := by
  intro a b same
  refine lanesExt fun x y => ?_
  have here : lane (pi a) y (2 * x + 3 * y) = lane (pi b) y (2 * x + 3 * y) := by rw [same]
  rw [piLane, piLane, ← laneModulo, ← laneModulo b, show (y + 3 * (2 * x + 3 * y)) % 5 = x % 5 by omega,
    laneModulo, laneModulo] at here
  exact here

theorem chiLane (a : Lanes) (x y : Nat) :
    lane (chi a) x y = lane a x y ^^^ (~~~ lane a (x + 1) y &&& lane a (x + 2) y) := by
  have modulo : ∀ n, lane a (x % 5 + n) (y % 5) = lane a (x + n) y := fun n => by
    rw [← laneModulo, Nat.mod_add_mod, Nat.mod_mod, laneModulo]
  rw [chi, laneOfLanes, modulo, modulo, laneModulo]

theorem rowBits : ∀ a0 a1 a2 a3 a4 b0 b1 b2 b3 b4 : Bool,
    (a0 ^^ (!a1 && a2)) = (b0 ^^ (!b1 && b2)) → (a1 ^^ (!a2 && a3)) = (b1 ^^ (!b2 && b3)) →
    (a2 ^^ (!a3 && a4)) = (b2 ^^ (!b3 && b4)) → (a3 ^^ (!a4 && a0)) = (b3 ^^ (!b4 && b0)) →
    (a4 ^^ (!a0 && a1)) = (b4 ^^ (!b0 && b1)) → a0 = b0 := by decide

theorem chiBit (a : Lanes) (x y : Nat) {i : Nat} (inside : i < 64) :
    (lane (chi a) x y).toBitVec.getLsbD i = ((lane a x y).toBitVec.getLsbD i ^^
      (!(lane a (x + 1) y).toBitVec.getLsbD i && (lane a (x + 2) y).toBitVec.getLsbD i)) := by
  rw [chiLane, UInt64.toBitVec_xor, BitVec.getLsbD_xor, UInt64.toBitVec_and, BitVec.getLsbD_and, UInt64.toBitVec_not,
    BitVec.getLsbD_not, decide_eq_true inside, Bool.true_and]

theorem chiInjective : Function.Injective chi := by
  intro a b same
  refine lanesExt fun x y => bitsExt fun i inside => ?_
  have around : ∀ (c : Lanes) (n : Nat), lane c (x + (n + 5)) y = lane c (x + n) y := fun c n => by
    rw [← laneModulo, show (x + (n + 5)) % 5 = (x + n) % 5 by omega, laneModulo]
  have bit : ∀ n, ((lane a (x + n) y).toBitVec.getLsbD i ^^
      (!(lane a (x + (n + 1)) y).toBitVec.getLsbD i && (lane a (x + (n + 2)) y).toBitVec.getLsbD i)) =
      ((lane b (x + n) y).toBitVec.getLsbD i ^^
      (!(lane b (x + (n + 1)) y).toBitVec.getLsbD i && (lane b (x + (n + 2)) y).toBitVec.getLsbD i)) := fun n => by
    rw [← Nat.add_assoc, ← Nat.add_assoc, ← chiBit a _ y inside, ← chiBit b _ y inside, same]
  have third := bit 3
  have fourth := bit 4
  rw [around a 0, around b 0] at third
  rw [around a 0, around b 0, around a 1, around b 1] at fourth
  exact rowBits _ _ _ _ _ _ _ _ _ _ (bit 0) (bit 1) (bit 2) third fourth

theorem iotaInjective (rc : UInt64) : Function.Injective (iota rc) := by
  intro a b same
  have entries : ∀ i : Fin 25, (iota rc a).get i = (iota rc b).get i := fun i => by rw [same]
  refine Vector.ext fun i inside => ?_
  have here := entries ⟨i, inside⟩
  rw [iota, iota, Assembly.setFirst, Assembly.setFirst] at here
  by_cases first : 0 = i
  · subst first
    rw [if_pos rfl, if_pos rfl] at here
    exact (UInt64.xor_left_inj rc).mp here
  · rw [if_neg first, if_neg first] at here
    exact here

theorem roundInjective (rc : UInt64) : Function.Injective fun a => iota rc (chi (pi (rho (theta a)))) :=
  (iotaInjective rc).comp (chiInjective.comp (piInjective.comp (rhoInjective.comp thetaInjective)))

theorem roundsInjective (constants : List UInt64) :
    Function.Injective fun a => constants.foldl (fun a rc => iota rc (chi (pi (rho (theta a))))) a := by
  induction constants with
  | nil => exact Function.injective_id
  | cons rc rest ih => exact ih.comp (roundInjective rc)

theorem keccakFInjective : Function.Injective keccakF := roundsInjective keccakFRoundConstants

instance lanesFinite : Finite Lanes :=
  Finite.of_injective (fun (a : Lanes) (i : Fin 25) => (a.get i).toFin) fun _ _ same =>
    Vector.ext fun i inside => UInt64.toFin_inj.mp (congrFun same ⟨i, inside⟩)

theorem keccakFBijective : Function.Bijective keccakF := keccakFInjective.bijective_of_finite

end Armor.Keccak

namespace Armor.Keccak.TwoLane

theorem permuteComp (f g : Lanes → Lanes) (s : WordMem) :
    statePermutex2 f (statePermutex2 g s) = statePermutex2 (f ∘ g) s := by
  funext w
  by_cases inside : w < 50
  · have outer : statePermutex2 f (statePermutex2 g s) w = (f (lanesOf (statePermutex2 g s) (w % 2)))[w / 2] := dif_pos inside
    have whole : statePermutex2 (f ∘ g) s w = (f (g (lanesOf s (w % 2))))[w / 2] := dif_pos inside
    rw [outer, whole]
    simp only [permuteLanes g s (Nat.mod_lt w (by decide))]
  · have outer : statePermutex2 f (statePermutex2 g s) w = statePermutex2 g s w := dif_neg inside
    have inner : statePermutex2 g s w = s w := dif_neg inside
    have whole : statePermutex2 (f ∘ g) s w = s w := dif_neg inside
    rw [outer, inner, whole]

theorem permuteBijective {f : Lanes → Lanes} (bijective : Function.Bijective f) : Function.Bijective (statePermutex2 f) := by
  obtain ⟨g, left, right⟩ := Function.bijective_iff_has_inverse.mp bijective
  refine Function.bijective_iff_has_inverse.mpr ⟨statePermutex2 g, fun s => ?_, fun s => ?_⟩
  · rw [permuteComp, Function.LeftInverse.comp_eq_id left, permuteId]
  · rw [permuteComp, Function.RightInverse.comp_eq_id right, permuteId]

theorem f1600x2Permutes (z : Nat → Assembly.RegisterFile) (s : WordMem) :
    (Assembly.f1600x2 Assembly.roundConstants ⟨z, 0, 0, s⟩).state = statePermutex2 keccakF s := by
  funext w
  rw [Assembly.f1600x2Stored]
  by_cases inside : w < 50
  · have lanes := Assembly.f1600x2Lanes z s (Nat.mod_lt w (show 0 < 2 by decide))
    generalize Assembly.loop Assembly.roundConstants 24
      (Assembly.run Assembly.roundConstants Assembly.loadState ⟨z, 0, 0, s⟩) = m at lanes ⊢
    have whole : statePermutex2 keccakF s w = (keccakF (lanesOf s (w % 2)))[w / 2] := dif_pos inside
    rw [dif_pos inside, whole]
    simp only [lanes]
  · have whole : statePermutex2 keccakF s w = s w := dif_neg inside
    rw [whole, dif_neg inside]

variable {kind : ShakeKind} {f : Lanes → Lanes}

def squeezedState (kind : ShakeKind) (f : Lanes → Lanes) : Keccakx2State → List SqueezeCall → Keccakx2State
  | state, [] => state
  | state, c :: rest => squeezedState kind f (incSqueeze kind f state c.out c.outLen).1 rest

theorem squeezedAt (reads : List SqueezeCall) {s : WordMem} {p : Nat} {state : Keccakx2State} (holds : At kind f s p state) :
    At kind f s ((reads.map SqueezeCall.outLen).foldl (nextPosition kind) p) (squeezedState kind f state reads) := by
  induction reads generalizing p state with
  | nil => exact holds
  | cons c rest ih => exact ih (squeezeServes holds c.outLen c.out).2

theorem squeezedLanes (calls : List Call) (reads : List SqueezeCall) {i : Nat} (h : i < 2) :
    let p := (reads.map SqueezeCall.outLen).foldl (nextPosition kind) 0
    lanesOf (squeezedState kind f (finalized kind f calls) reads).s i =
      f^[(p + kind.rate - 1) / kind.rate] (lanesOf (finalized kind f calls).s i) := by
  intro p
  rw [(squeezedAt reads (finalizedAt calls)).words, iterateLanes f _ h]

theorem statesMeet (kind : ShakeKind) (calls calls' : List Call) (reads reads' : List SqueezeCall)
    (narrow : NarrowFrom kind 0 (calls.map Call.inLen)) (narrow' : NarrowFrom kind 0 (calls'.map Call.inLen))
    (lengths : reads.map SqueezeCall.outLen = reads'.map SqueezeCall.outLen) (z : Nat → Assembly.RegisterFile) :
    let permute := fun s => (Assembly.f1600x2 Assembly.roundConstants ⟨z, 0, 0, s⟩).state
    (permute = statePermutex2 keccakF ∧ Function.Bijective permute) ∧ ∀ i < 2, ∀ i' < 2,
      let after := lanesOf (squeezedState kind keccakF (finalized kind keccakF calls) reads).s i
      let after' := lanesOf (squeezedState kind keccakF (finalized kind keccakF calls') reads').s i'
      let padded := Sponge.pad kind.rate (stream calls i)
      let padded' := Sponge.pad kind.rate (stream calls' i')
      (stream calls i = stream calls' i' → after = after') ∧ (after = after' → stream calls i = stream calls' i' ∨
        Sponge.InnerCollision bytewise keccakF kind.rate (Sponge.streamOf padded) (Sponge.streamOf padded')
          ((stream calls i).length / kind.rate) ((stream calls' i').length / kind.rate)) := by
  intro permute
  have permutes : permute = statePermutex2 keccakF := funext (f1600x2Permutes z)
  refine ⟨⟨permutes, permutes ▸ permuteBijective keccakFBijective⟩, fun i h i' h' => ?_⟩
  intro after after' padded padded'
  have bounds := kind.rateBounds
  have turned : after = after' ↔
      keccakF (lanesOf (finalized kind keccakF calls).s i) =
        keccakF (lanesOf (finalized kind keccakF calls').s i') := by
    have here : after = _ := squeezedLanes calls reads h
    have there : after' = _ := squeezedLanes calls' reads' h'
    rw [here, there, lengths, (keccakFInjective.iterate _).eq_iff, keccakFInjective.eq_iff]
  rw [turned, finalized, finalized, absorbedStream (f := keccakF) narrow h, absorbedStream (f := keccakF) narrow' h']
  constructor
  · intro same
    rw [same]
  · intro same
    exact Sponge.absorbedMeet keccakFInjective (by omega) bounds.2.1 same

theorem statesMeetSplit :
    let whole : List Call := [⟨fun _ => 1, fun _ => 2, 2⟩]
    let split : List Call := [oneByte, oneByte]
    let reads : List SqueezeCall := [⟨(quiet, quiet), 5⟩]
    (∀ s, (Assembly.f1600x2 Assembly.roundConstants ⟨fun _ _ => 0, 0, 0, s⟩).state = statePermutex2 keccakF s) ∧
      lanesOf (squeezedState .shake128 keccakF (finalized .shake128 keccakF whole) reads).s 0 =
        lanesOf (squeezedState .shake128 keccakF (finalized .shake128 keccakF split) reads).s 0 := by
  intro whole split reads
  have narrow : NarrowFrom .shake128 0 (whole.map Call.inLen) := ⟨by decide, trivial⟩
  have narrow' : NarrowFrom .shake128 0 (split.map Call.inLen) := ⟨by decide, by decide, trivial⟩
  obtain ⟨⟨permutes, -⟩, meets⟩ := statesMeet .shake128 whole split reads reads narrow narrow' rfl fun _ _ => 0
  exact ⟨congrFun permutes, (meets 0 (by decide) 0 (by decide)).1 (by decide)⟩

end Armor.Keccak.TwoLane
