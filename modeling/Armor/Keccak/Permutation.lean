import Armor.Lib.Sponge
import Armor.Lib.Words

/-! Keccak-f[1600] in the numbering of FIPS 202, lane `(x, y)` at index `x + 5 y`, with the
round constants of `KeccakF_RoundConstants`. -/
namespace Armor.Keccak

abbrev Lanes := Vector UInt64 25

def lane (a : Lanes) (x y : Nat) : UInt64 := a.get ⟨x % 5 + 5 * (y % 5), by omega⟩

def ofLanes (g : Nat → Nat → UInt64) : Lanes := Vector.ofFn fun i => g (i.val % 5) (i.val / 5)

def rotl (w : UInt64) (n : Nat) : UInt64 :=
  w <<< UInt64.ofNat (n % 64) ||| w >>> UInt64.ofNat ((64 - n % 64) % 64)

def theta (a : Lanes) : Lanes :=
  let c : Vector UInt64 5 := Vector.ofFn fun x =>
    lane a x 0 ^^^ lane a x 1 ^^^ lane a x 2 ^^^ lane a x 3 ^^^ lane a x 4
  ofLanes fun x y => lane a x y ^^^ (c.get ⟨(x + 4) % 5, by omega⟩ ^^^ rotl (c.get ⟨(x + 1) % 5, by omega⟩) 1)

def rhoOffsets : Vector Nat 25 :=
  #v[0, 1, 62, 28, 27, 36, 44, 6, 55, 20, 3, 10, 43, 25, 39, 41, 45, 15, 21, 8, 18, 2, 61, 56, 14]

def rho (a : Lanes) : Lanes := Vector.ofFn fun i => rotl a[i] rhoOffsets[i]

def pi (a : Lanes) : Lanes := ofLanes fun x y => lane a (x + 3 * y) x

def chi (a : Lanes) : Lanes :=
  ofLanes fun x y => lane a x y ^^^ (~~~ lane a (x + 1) y &&& lane a (x + 2) y)

theorem someLane : 0 < 25 := by decide

def iota (rc : UInt64) (a : Lanes) : Lanes := a.set 0 (getElem a 0 someLane ^^^ rc) someLane

def keccakFRoundConstants : List UInt64 :=
  [0x0000000000000001, 0x0000000000008082, 0x800000000000808a, 0x8000000080008000,
   0x000000000000808b, 0x0000000080000001, 0x8000000080008081, 0x8000000000008009,
   0x000000000000008a, 0x0000000000000088, 0x0000000080008009, 0x000000008000000a,
   0x000000008000808b, 0x800000000000008b, 0x8000000000008089, 0x8000000000008003,
   0x8000000000008002, 0x8000000000000080, 0x000000000000800a, 0x800000008000000a,
   0x8000000080008081, 0x8000000000008080, 0x0000000080000001, 0x8000000080008008]

def keccakF (a : Lanes) : Lanes :=
  keccakFRoundConstants.foldl (fun a rc => iota rc (chi (pi (rho (theta a))))) a

def rcBit (t : Nat) : Bool :=
  let register := (List.range (t % 255)).foldl (fun (r : UInt8) _ =>
    if r &&& 0x80 = 0 then r <<< 1 else (r <<< 1) ^^^ 0x71) 1
  register &&& 1 = 1

def roundConstant (round : Nat) : UInt64 :=
  (List.range 7).foldl (fun rc j => if rcBit (j + 7 * round) then rc ||| 1 <<< UInt64.ofNat (2 ^ j - 1) else rc) 0

theorem roundConstantsComputed : keccakFRoundConstants = (List.range 24).map roundConstant := by decide

def standardKeccakF (a : Lanes) : Lanes :=
  (List.range 24).foldl (fun a round => iota (roundConstant round) (chi (pi (rho (theta a))))) a

theorem keccakFStandard (a : Lanes) : keccakF a = standardKeccakF a := by
  rw [keccakF, roundConstantsComputed, List.foldl_map]
  rfl

def rhoWalk : List (Nat × Nat) := (List.range 24).map fun t =>
  let lane := (fun xy : Nat × Nat => (xy.2, (2 * xy.1 + 3 * xy.2) % 5))^[t] (1, 0)
  (lane.1 + 5 * lane.2, (t + 1) * (t + 2) / 2 % 64)

theorem rhoOffsetsComputed : ∀ step ∈ rhoWalk, rhoOffsets.toList[step.1]? = some step.2 := by decide

def stateByte (a : Lanes) (k : Nat) : UInt8 := if h : k / 8 < 25 then Words.byteOf a[k / 8] (k % 8) else 0

def addStateByte (a : Lanes) (k : Nat) (b : UInt8) : Lanes :=
  Vector.ofFn fun i => if i.val = k / 8 then a[i] ^^^ Words.ofBytes (fun j => if j = k % 8 then b else 0) else a[i]

theorem stateByteAt (a : Lanes) {k : Nat} (h : k / 8 < 25) :
    stateByte a k = Words.byteOf a[k / 8] (k % 8) := dif_pos h

def bytewise : Sponge.Bytewise Lanes 200 where
  zero := Vector.replicate 25 0
  byte := stateByte
  addByte := addStateByte
  byteZero k below := by
    rw [stateByteAt _ (by omega), Vector.getElem_replicate, Words.byteOfZero]
  byteAdd a k b j below := by
    rw [stateByteAt _ (by omega), stateByteAt _ (by omega), addStateByte, Vector.getElem_ofFn]
    by_cases word : j / 8 = k / 8
    · rw [if_pos word, Words.byteOfXor, Words.byteOfBytes _ (by omega)]
      by_cases here : j = k
      · rw [if_pos here, if_pos (by rw [here])]
        rfl
      · rw [if_neg here, if_neg (by omega), UInt8.xor_zero]
        rfl
    · rw [if_neg word, if_neg (by rintro rfl; exact word rfl)]
      rfl
  byteExt a a' same := by
    refine Vector.ext fun i below => Words.wordExt fun k small => ?_
    have here := same (8 * i + k) (by omega)
    have word : (8 * i + k) / 8 = i := by omega
    have byte : (8 * i + k) % 8 = k := by omega
    rw [stateByteAt _ (by omega), stateByteAt _ (by omega)] at here
    simpa only [word, byte] using here

inductive ShakeKind where
  | shake128
  | shake256
  deriving DecidableEq, Repr

def ShakeKind.rate : ShakeKind → Nat
  | .shake128 => 168
  | .shake256 => 136

theorem ShakeKind.rateBounds (kind : ShakeKind) :
    8 < kind.rate ∧ kind.rate ≤ 200 ∧ kind.rate % 8 = 0 := by
  cases kind <;> decide

end Armor.Keccak
