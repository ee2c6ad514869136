import Armor.Cross.Fp
import Armor.Cross.Shake
import Armor.Lib.Loop

/-! The samplers of `csprng_hash.h` and `csprng_hash.c`: a fixed amount of randomness is read at
once and consumed bit by bit through a 64-bit window. All of them are one loop, that draws some bits
and goes on until enough candidates were admitted. -/
namespace Armor.Cross

def loadBytes (buffer : Mem) (pos count : Nat) : UInt64 :=
  Loop.upTo count (fun i loaded => loaded ||| ((buffer (pos + i)).toUInt64 <<< (8 * i).toUInt64)) 0

theorem loadBytesBound (buffer : Mem) (pos : Nat) {count : Nat} (small : count ≤ 8) :
    (loadBytes buffer pos count).toNat < 2 ^ (8 * count) := by
  refine Loop.upToInvariant (fun i (loaded : UInt64) => loaded.toNat < 2 ^ (8 * i)) Nat.one_pos
    fun i below loaded here => ?_
  have amount : (8 * i).toUInt64.toNat % 64 = 8 * i := by
    change 8 * i % 2 ^ 64 % 64 = 8 * i
    omega
  have byte : (buffer (pos + i)).toNat * 2 ^ (8 * i) < 2 ^ (8 * (i + 1)) := by
    rw [Nat.mul_succ, Nat.add_comm (8 * i), Nat.pow_add]
    exact Nat.mul_lt_mul_of_pos_right (buffer (pos + i)).toNat_lt (Nat.two_pow_pos _)
  rw [UInt64.toNat_or, UInt64.toNat_shiftLeft, amount, Nat.shiftLeft_eq]
  exact Nat.or_lt_two_pow (Nat.lt_of_lt_of_le here (Nat.pow_le_pow_right Nat.two_pos (by omega)))
    (Nat.lt_of_le_of_lt (Nat.mod_le _ _) byte)

/-- The window on the random bytes. Once the bytes run out `bits_in_sub_buf` may get negative, and
the window is 0. -/
structure BitBuffer where
  subBuffer : UInt64
  bitsInSubBuf : Int
  posInBuf : Nat
  posRemaining : Nat
  filled : subBuffer.toNat < 2 ^ bitsInSubBuf.toNat
  live : 0 < posRemaining → 0 < bitsInSubBuf

namespace BitBuffer

def start (buffer : Mem) (size : Nat) : BitBuffer where
  subBuffer := loadBytes buffer 0 8
  bitsInSubBuf := 64
  posInBuf := 8
  posRemaining := size - 8
  filled := loadBytesBound buffer 0 (Nat.le_refl 8)
  live _ := by decide

def refreshAmount (b : BitBuffer) : Nat := if b.posRemaining ≥ 4 then 4 else b.posRemaining

theorem refreshSmall (b : BitBuffer) : b.refreshAmount ≤ 4 ∧ b.refreshAmount ≤ b.posRemaining := by
  unfold refreshAmount
  split <;> omega

theorem refreshFilled (buffer : Mem) (b : BitBuffer) (low : b.bitsInSubBuf ≤ 32) (more : 0 < b.posRemaining) :
    (b.subBuffer ||| (loadBytes buffer b.posInBuf b.refreshAmount <<< b.bitsInSubBuf.toNat.toUInt64)).toNat <
      2 ^ (b.bitsInSubBuf + 8 * b.refreshAmount).toNat := by
  have live := b.live more
  have small := b.refreshSmall
  have loaded := loadBytesBound buffer b.posInBuf (show b.refreshAmount ≤ 8 by omega)
  have amount : b.bitsInSubBuf.toNat.toUInt64.toNat % 64 = b.bitsInSubBuf.toNat := by
    change b.bitsInSubBuf.toNat % 2 ^ 64 % 64 = _
    omega
  have total : (b.bitsInSubBuf + 8 * b.refreshAmount).toNat = 8 * b.refreshAmount + b.bitsInSubBuf.toNat := by omega
  have shifted : (loadBytes buffer b.posInBuf b.refreshAmount).toNat * 2 ^ b.bitsInSubBuf.toNat <
      2 ^ (8 * b.refreshAmount + b.bitsInSubBuf.toNat) := by
    rw [Nat.pow_add]
    exact Nat.mul_lt_mul_of_pos_right loaded (Nat.two_pow_pos _)
  rw [UInt64.toNat_or, UInt64.toNat_shiftLeft, amount, Nat.shiftLeft_eq, total]
  exact Nat.or_lt_two_pow (Nat.lt_of_lt_of_le b.filled (Nat.pow_le_pow_right Nat.two_pos (by omega)))
    (Nat.lt_of_le_of_lt (Nat.mod_le _ _) shifted)

def refill (buffer : Mem) (b : BitBuffer) : BitBuffer :=
  if needed : b.bitsInSubBuf ≤ 32 ∧ b.posRemaining > 0 then
    { subBuffer := b.subBuffer ||| (loadBytes buffer b.posInBuf b.refreshAmount <<< b.bitsInSubBuf.toNat.toUInt64)
      bitsInSubBuf := b.bitsInSubBuf + 8 * b.refreshAmount
      posInBuf := b.posInBuf + b.refreshAmount
      posRemaining := b.posRemaining - b.refreshAmount
      filled := b.refreshFilled buffer needed.1 needed.2
      live _ := by have := b.live needed.2; omega }
  else b

theorem refillFull (buffer : Mem) (b : BitBuffer) (more : 0 < (b.refill buffer).posRemaining) :
    32 < (b.refill buffer).bitsInSubBuf := by
  unfold refill at more ⊢
  split at more
  · rename_i needed
    rw [dif_pos needed]
    have live := b.live needed.2
    have four : b.refreshAmount = 4 := by
      unfold refreshAmount at more ⊢
      split at more
      · rename_i four
        exact if_pos four
      · exact absurd more (by simp)
    dsimp only
    omega
  · rename_i enough
    rw [dif_neg enough]
    omega

def consume (width : Nat) (small : width ≤ 32) (b : BitBuffer) (full : 0 < b.posRemaining → 32 < b.bitsInSubBuf) :
    BitBuffer :=
  { b with
    subBuffer := b.subBuffer >>> width.toUInt64
    bitsInSubBuf := b.bitsInSubBuf - width
    filled := by
      have amount : width.toUInt64.toNat % 64 = width := by
        change width % 2 ^ 64 % 64 = width
        omega
      have filled := b.filled
      rw [UInt64.toNat_shiftRight, amount, Nat.shiftRight_eq_div_pow]
      rcases Nat.le_total width b.bitsInSubBuf.toNat with enough | short
      · refine Nat.div_lt_of_lt_mul ?_
        rwa [← Nat.pow_add, show width + (b.bitsInSubBuf - width).toNat = b.bitsInSubBuf.toNat by omega]
      · have drained : b.subBuffer.toNat < 2 ^ width :=
          Nat.lt_of_lt_of_le filled (Nat.pow_le_pow_right Nat.two_pos short)
        rw [Nat.div_eq_of_lt drained]
        exact Nat.two_pow_pos _
    live := fun more => by have := full more; omega }

def available (b : BitBuffer) : Nat := 8 * b.posRemaining + b.bitsInSubBuf.toNat

theorem refillAvailable (buffer : Mem) (b : BitBuffer) : (b.refill buffer).available = b.available := by
  unfold refill
  split
  · rename_i needed
    have live := b.live needed.2
    have small := b.refreshSmall
    simp only [available]
    omega
  · rfl

theorem consumeAvailable {width : Nat} (small : width ≤ 32) (b : BitBuffer)
    (full : 0 < b.posRemaining → 32 < b.bitsInSubBuf) :
    (b.consume width small full).available = b.available - min width b.bitsInSubBuf.toNat := by
  simp only [available, consume]
  omega

end BitBuffer

/-- A sampling loop: how many bits the draw at some position takes, which candidates are admitted,
and what one iteration writes. -/
structure Sampler (σ : Type) where
  count : Nat
  width : Nat → Nat
  admits : Nat → UInt64 → Bool
  visit : Nat → UInt64 → σ → σ
  narrow : ∀ placed < count, 0 < width placed ∧ width placed ≤ 32
  zero : ∀ placed < count, admits placed 0 = true

namespace Sampler

variable {σ : Type} (d : Sampler σ)

def candidate (placed : Nat) (b : BitBuffer) : UInt64 := b.subBuffer &&& (((1 : UInt64) <<< (d.width placed).toUInt64) - 1)

theorem rejectedLive {placed : Nat} (below : placed < d.count) {b : BitBuffer}
    (rejected : ¬ d.admits placed (d.candidate placed b) = true) : 0 < b.bitsInSubBuf.toNat := by
  refine Nat.pos_of_ne_zero fun drained => rejected ?_
  have filled := b.filled
  rw [drained, Nat.pow_zero, Nat.lt_one_iff] at filled
  have none : b.subBuffer = 0 := UInt64.toNat_inj.mp filled
  rw [candidate, none, UInt64.zero_and]
  exact d.zero placed below

/-- `while (placed < count)`. Each iteration places an element or uses up bits. -/
def run (buffer : Mem) (placed : Nat) (b : BitBuffer) (s : σ) : σ :=
  if below : placed < d.count then
    let refilled := b.refill buffer
    let candidate := d.candidate placed refilled
    run buffer (if d.admits placed candidate = true then placed + 1 else placed)
      (refilled.consume (d.width placed) (d.narrow placed below).2 (b.refillFull buffer)) (d.visit placed candidate s)
  else s
termination_by b.available + (d.count - placed)
decreasing_by
  have narrow := d.narrow placed below
  rw [BitBuffer.consumeAvailable, BitBuffer.refillAvailable]
  split
  · omega
  · rename_i rejected
    have live := d.rejectedLive below rejected
    have less : (b.refill buffer).bitsInSubBuf.toNat ≤ b.available := by
      rw [← b.refillAvailable buffer]
      exact Nat.le_add_left _ _
    omega

theorem runInvariant {d : Sampler σ} (inv : Nat → σ → Prop) {placed : Nat} {s : σ} (le : placed ≤ d.count)
    (start : inv placed s) (next : ∀ placed < d.count, ∀ candidate s, inv placed s →
      inv (if d.admits placed candidate = true then placed + 1 else placed) (d.visit placed candidate s))
    (buffer : Mem) (b : BitBuffer) : inv d.count (d.run buffer placed b s) := by
  fun_induction d.run buffer placed b s with
  | case1 placed b s below refilled candidate ih =>
    refine ih ?_ (next placed below candidate s start)
    split
    · exact below
    · exact le
  | case2 placed b s done =>
    have last : placed = d.count := by omega
    exact last ▸ start

end Sampler

def bitsForP : Nat := bitsToRepresent (P - 1)
def bitsForPMOne : Nat := bitsToRepresent (P - 2)
def bitsForZ : Nat := bitsToRepresent (Z - 1)

def belowBound {α : Type} (count width : Nat) (value : UInt64 → α) (admissible : α → Bool)
    (narrow : 0 < width ∧ width ≤ 32) (zero : admissible (value 0) = true) : Sampler (Vector α count) where
  count := count
  width _ := width
  admits _ candidate := admissible (value candidate)
  visit placed candidate res := res.setIfInBounds placed (value candidate)
  narrow _ _ := narrow
  zero _ _ := zero

theorem belowBoundAdmitted {α : Type} {count width : Nat} {value : UInt64 → α} {admissible : α → Bool}
    {narrow : 0 < width ∧ width ≤ 32} {zero : admissible (value 0) = true} (buffer : Mem) (b : BitBuffer)
    (res : Vector α count) (i : Fin count) :
    admissible ((belowBound count width value admissible narrow zero).run buffer 0 b res)[i] = true := by
  refine Sampler.runInvariant (d := belowBound count width value admissible narrow zero)
    (fun placed (res : Vector α count) => ∀ i : Fin count, i < placed → admissible res[i] = true) (Nat.zero_le _)
    (fun i below => absurd below (Nat.not_lt_zero _)) (fun placed below candidate res here i => ?_) buffer b i i.isLt
  intro low
  change admissible (res.setIfInBounds placed (value candidate))[i.val] = true
  change i.val < (if admissible (value candidate) = true then placed + 1 else placed) at low
  rw [Vector.getElem_setIfInBounds]
  by_cases admitted : admissible (value candidate) = true
  · rw [if_pos admitted] at low
    split
    · exact admitted
    · exact here i (by omega)
  · rw [if_neg admitted] at low
    rw [if_neg (Nat.ne_of_gt low)]
    exact here i low

def fpSampler (count : Nat) : Sampler (FpVec count) :=
  belowBound count bitsForP (fun candidate => candidate.toUInt16) (fun x => decide (x.toNat < P)) (by decide) (by decide)

def fpStarSampler (count : Nat) : Sampler (FpVec count) :=
  belowBound count bitsForPMOne (fun candidate => (candidate + 1).toUInt16) (fun x => decide (x.toNat < P)) (by decide)
    (by decide)

def fzSampler (count : Nat) : Sampler (FzVec count) :=
  belowBound count bitsForZ (fun candidate => candidate.toUInt8) (fun x => decide (x.toNat < Z)) (by decide) (by decide)

/-- The randomness for `bits` bits is extracted at once. The result array is written throughout. -/
def sampleBits {σ : Type} (d : Sampler σ) (shake : Shake) (bits : Nat) (res : σ) (csprngState : CsprngState) :
    σ × CsprngState :=
  let size := roundUp bits 8 / 8
  let (csprngBuffer, csprngState) := csprngRandombytes shake size csprngState
  let buffer := Mem.ofBlock csprngBuffer
  (d.run buffer 0 (BitBuffer.start buffer size) res, csprngState)

def asRows {α : Type} {rows cols : Nat} (flat : Vector α (rows * cols)) : Matrix α rows cols :=
  Vector.ofFn fun i => Vector.ofFn fun j => flat.get ⟨i.val * cols + j.val, by
    have := Nat.mul_le_mul_right cols (Nat.succ_le_of_lt i.isLt)
    rw [Nat.succ_mul] at this
    omega⟩

variable (p : Parameters) (shake : Shake)

def csprngFpVec (csprngState : CsprngState) : FpVec p.n × CsprngState :=
  sampleBits (fpSampler p.n) shake p.bitsNFpCtRng (Vector.replicate _ 0) csprngState

def csprngFpVecChall1 (csprngState : CsprngState) : FpVec p.t × CsprngState :=
  sampleBits (fpStarSampler p.t) shake p.bitsChall1FpstarCtRng (Vector.replicate _ 0) csprngState

def csprngFpMat (csprngState : CsprngState) : Matrix FpElem p.k (p.n - p.k) × CsprngState :=
  let drawn := sampleBits (fpSampler (p.k * (p.n - p.k))) shake p.bitsVCtRng (Vector.replicate _ 0) csprngState
  (asRows drawn.1, drawn.2)

def csprngFzInfW (csprngState : CsprngState) : FzVec p.m × CsprngState :=
  sampleBits (fzSampler p.m) shake p.bitsMFzCtRng (Vector.replicate _ 0) csprngState

def csprngFzMat (csprngState : CsprngState) : Matrix FzElem p.m (p.n - p.m) × CsprngState :=
  let drawn := sampleBits (fzSampler (p.m * (p.n - p.m))) shake p.bitsWCtRng (Vector.replicate _ 0) csprngState
  (asRows drawn.1, drawn.2)

def swap (s : Mem) (curr dest : Nat) : Mem := Function.update (Function.update s curr (s dest)) dest (s curr)

theorem positionBits : ∀ n < 512, 0 < bitsToRepresent n ∧ bitsToRepresent n ≤ 32 := by decide +kernel

def shuffle : Sampler Mem where
  count := p.t
  width curr := bitsToRepresent (p.t - 1 - curr)
  admits curr candidate := decide (candidate.toUInt16.toNat < p.t - curr)
  visit curr candidate s :=
    let candidatePos := candidate.toUInt16.toNat
    if candidatePos < p.t - curr then swap s curr (curr + candidatePos) else s
  narrow curr below := positionBits _ (by have rounds : p.t ≤ 512 := p.roundsFit; omega)
  zero curr below := decide_eq_true (Nat.sub_pos_of_lt below)

def expandDigestToFixedWeight (digest : Block p.hashLength) : Mem :=
  let dsc := csprngDomainSepConst + UInt16.ofNat (3 * p.t)
  (sampleBits (shuffle p) shake p.bitsCwstrRng (fun i => if i < p.w then 1 else 0)
    (csprngInitialize digest.toList dsc)).1

end Armor.Cross
