import Armor.Cross.SamplingFacts
import Armor.Lib.Fields

/-! What the samplers draw, without their window: the bits of the extendable-output function one after
another, none skipped and none used twice, then zeros. -/
namespace Armor.Cross

open BitStream

def bufferBits (buffer : Mem) : Nat → Bool := bit 8 fun a => (buffer a).toNat

theorem bufferBitsBlank {buffer : Mem} {size k : Nat} (blank : ∀ a ≥ size, buffer a = 0) (beyond : 8 * size ≤ k) :
    bufferBits buffer k = false := by
  refine bitZero ?_
  rw [blank (k / 8) (by omega)]
  rfl

structure Loaded (buffer : Mem) (pos count : Nat) (loaded : UInt64) : Prop where
  small : loaded.toNat < 2 ^ (8 * count)
  bits : ∀ k < 8 * count, loaded.toNat.testBit k = bufferBits buffer (8 * pos + k)

theorem loadBytesLoaded (buffer : Mem) (pos : Nat) {count : Nat} (small : count ≤ 8) :
    Loaded buffer pos count (loadBytes buffer pos count) := by
  refine Loop.upToInvariant (fun i => Loaded buffer pos i) ⟨Nat.one_pos, fun k below => absurd below (Nat.not_lt_zero k)⟩
    fun i below loaded here => ?_
  have amount : (8 * i).toUInt64.toNat % 64 = 8 * i := by
    change 8 * i % 2 ^ 64 % 64 = 8 * i
    omega
  have byte : (buffer (pos + i)).toNat < 2 ^ 8 := (buffer (pos + i)).toNat_lt
  have room : (buffer (pos + i)).toNat * 2 ^ (8 * i) < 2 ^ (8 * (i + 1)) := by
    rw [Nat.mul_succ, Nat.add_comm (8 * i), Nat.pow_add]
    exact Nat.mul_lt_mul_of_pos_right byte (Nat.two_pow_pos _)
  have word : (loaded ||| (buffer (pos + i)).toUInt64 <<< (8 * i).toUInt64).toNat =
      loaded.toNat ||| (buffer (pos + i)).toNat <<< (8 * i) := by
    have fits : (buffer (pos + i)).toNat * 2 ^ (8 * i) < 2 ^ 64 :=
      Nat.lt_of_lt_of_le room (Nat.pow_le_pow_right Nat.two_pos (by omega))
    rw [UInt64.toNat_or, UInt64.toNat_shiftLeft, amount, UInt8.toNat_toUInt64, Nat.shiftLeft_eq, Nat.mod_eq_of_lt fits]
  constructor
  · rw [word, Nat.shiftLeft_eq]
    exact Nat.or_lt_two_pow (Nat.lt_of_lt_of_le here.small (Nat.pow_le_pow_right Nat.two_pos (by omega))) room
  · intro k inside
    rw [word, Nat.testBit_or, Nat.testBit_shiftLeft]
    rcases Nat.lt_or_ge k (8 * i) with low | high
    · rw [here.bits k low, decide_eq_false (Nat.not_le_of_lt low), Bool.false_and, Bool.or_false]
    · have above : loaded.toNat.testBit k = false :=
        Nat.testBit_eq_false_of_lt (Nat.lt_of_lt_of_le here.small (Nat.pow_le_pow_right Nat.two_pos high))
      have place : 8 * pos + k = (pos + i) * 8 + (k - 8 * i) := by omega
      rw [above, Bool.false_or, decide_eq_true high, Bool.true_and, bufferBits, place, bitAt _ (by omega)]

structure Window (buffer : Mem) (size pos : Nat) (b : BitBuffer) : Prop where
  consumed : (pos : Int) + b.bitsInSubBuf = 8 * b.posInBuf
  remaining : size ≤ b.posInBuf + b.posRemaining
  bits : ∀ k : Nat, (k : Int) < b.bitsInSubBuf → b.subBuffer.toNat.testBit k = bufferBits buffer (pos + k)

variable {buffer : Mem} {size pos : Nat} {b : BitBuffer}

theorem startWindow (buffer : Mem) (size : Nat) : Window buffer size 0 (BitBuffer.start buffer size) where
  consumed := rfl
  remaining := by
    change size ≤ 8 + (size - 8)
    omega
  bits k below := by
    have inside : k < 64 := Int.ofNat_lt.mp below
    exact (loadBytesLoaded buffer 0 (Nat.le_refl 8)).bits k inside

theorem refillWindow (window : Window buffer size pos b) : Window buffer size pos (b.refill buffer) := by
  unfold BitBuffer.refill
  split
  · rename_i needed
    have live := b.live needed.2
    have small := b.refreshSmall
    have loaded := loadBytesLoaded buffer b.posInBuf (show b.refreshAmount ≤ 8 by omega)
    have consumed := window.consumed
    have amount : b.bitsInSubBuf.toNat.toUInt64.toNat % 64 = b.bitsInSubBuf.toNat := by
      change b.bitsInSubBuf.toNat % 2 ^ 64 % 64 = _
      omega
    have fits : (loadBytes buffer b.posInBuf b.refreshAmount).toNat * 2 ^ b.bitsInSubBuf.toNat < 2 ^ 64 := by
      refine Nat.lt_of_lt_of_le (Nat.mul_lt_mul_of_pos_right loaded.small (Nat.two_pow_pos _)) ?_
      rw [← Nat.pow_add]
      exact Nat.pow_le_pow_right Nat.two_pos (by omega)
    refine ⟨?_, ?_, fun k below => ?_⟩
    · dsimp only
      omega
    · have remaining := window.remaining
      dsimp only
      omega
    · dsimp only at below ⊢
      rw [UInt64.toNat_or, UInt64.toNat_shiftLeft, amount, Nat.shiftLeft_eq, Nat.mod_eq_of_lt fits, ← Nat.shiftLeft_eq,
        Nat.testBit_or, Nat.testBit_shiftLeft]
      rcases Nat.lt_or_ge k b.bitsInSubBuf.toNat with low | high
      · rw [window.bits k (by omega), decide_eq_false (Nat.not_le_of_lt low), Bool.false_and, Bool.or_false]
      · have above : b.subBuffer.toNat.testBit k = false :=
          Nat.testBit_eq_false_of_lt (Nat.lt_of_lt_of_le b.filled (Nat.pow_le_pow_right Nat.two_pos high))
        rw [above, Bool.false_or, decide_eq_true high, Bool.true_and, loaded.bits _ (by omega)]
        exact congrArg _ (by omega)
  · exact window

theorem consumeWindow (window : Window buffer size pos b) {width : Nat} (small : width ≤ 32)
    (full : 0 < b.posRemaining → 32 < b.bitsInSubBuf) : Window buffer size (pos + width) (b.consume width small full) := by
  have consumed := window.consumed
  refine ⟨?_, window.remaining, fun k below => ?_⟩
  · dsimp only [BitBuffer.consume]
    omega
  · dsimp only [BitBuffer.consume] at below ⊢
    have amount : width.toUInt64.toNat % 64 = width := by
      change width % 2 ^ 64 % 64 = width
      omega
    rw [UInt64.toNat_shiftRight, amount, Nat.testBit_shiftRight, window.bits _ (by omega), Nat.add_assoc]

theorem windowField {σ : Type} (d : Sampler σ) {placed : Nat} (below : placed < d.count) (blank : ∀ a ≥ size, buffer a = 0)
    (window : Window buffer size pos b) (full : 0 < b.posRemaining → 32 < b.bitsInSubBuf) :
    (d.candidate placed b).toNat = fieldAt (bufferBits buffer) pos (d.width placed) := by
  have narrow := (d.narrow placed below).2
  have amount : (d.width placed).toUInt64.toNat % 64 = d.width placed := by
    change d.width placed % 2 ^ 64 % 64 = _
    omega
  have power : 2 ^ d.width placed < 2 ^ 64 := Nat.pow_lt_pow_right (by decide) (by omega)
  have one : ((1 : UInt64) <<< (d.width placed).toUInt64).toNat = 2 ^ d.width placed := by
    rw [UInt64.toNat_shiftLeft, amount, UInt64.toNat_one, Nat.shiftLeft_eq, Nat.one_mul, Nat.mod_eq_of_lt power]
  have mask : ((1 : UInt64) <<< (d.width placed).toUInt64 - 1).toNat = 2 ^ d.width placed - 1 := by
    have positive := Nat.two_pow_pos (d.width placed)
    have le : (1 : UInt64) ≤ (1 : UInt64) <<< (d.width placed).toUInt64 := UInt64.le_iff_toNat_le.mpr (by rw [one]; exact positive)
    rw [UInt64.toNat_sub_of_le _ _ le, one, UInt64.toNat_one]
  unfold Sampler.candidate
  rw [UInt64.toNat_and, mask, Nat.and_two_pow_sub_one_eq_mod]
  refine fieldOf fun k inside => ?_
  by_cases held : (k : Int) < b.bitsInSubBuf
  · exact window.bits k held
  · have drained : b.posRemaining = 0 := by
      by_contra more
      have bits := full (Nat.pos_of_ne_zero more)
      omega
    have consumed := window.consumed
    have remaining := window.remaining
    rw [bufferBitsBlank blank (by omega)]
    exact Nat.testBit_eq_false_of_lt (Nat.lt_of_lt_of_le b.filled (Nat.pow_le_pow_right Nat.two_pos (by omega)))

section Runs

variable {σ : Type} {d : Sampler σ}

def Sampler.draw (d : Sampler σ) (bits : Nat → Bool) (pos placed : Nat) : UInt64 := UInt64.ofNat (fieldAt bits pos (d.width placed))

theorem windowDraw {placed : Nat} (below : placed < d.count) (blank : ∀ a ≥ size, buffer a = 0)
    (window : Window buffer size pos b) (full : 0 < b.posRemaining → 32 < b.bitsInSubBuf) :
    d.candidate placed b = d.draw (bufferBits buffer) pos placed := by
  have read := windowField d below blank window full
  have small : fieldAt (bufferBits buffer) pos (d.width placed) < 2 ^ 64 := by
    rw [← read]
    exact (d.candidate placed b).toNat_lt
  rw [← UInt64.toNat_inj, read, Sampler.draw, UInt64.toNat_ofNat', Nat.mod_eq_of_lt small]

theorem runDrawn (inv : Nat → Nat → σ → Prop) (blank : ∀ a ≥ size, buffer a = 0)
    (next : ∀ placed < d.count, ∀ pos s, inv placed pos s →
      inv (if d.admits placed (d.draw (bufferBits buffer) pos placed) = true then placed + 1 else placed) (pos + d.width placed)
        (d.visit placed (d.draw (bufferBits buffer) pos placed) s))
    {placed pos : Nat} {b : BitBuffer} {s : σ} (le : placed ≤ d.count) (window : Window buffer size pos b)
      (here : inv placed pos s) :
    ∃ stop, inv d.count stop (d.run buffer placed b s) := by
  fun_induction d.run buffer placed b s generalizing pos with
  | case1 placed b s below refilled candidate =>
    rename_i ih
    have refill := refillWindow window
    have drawn : candidate = d.draw (bufferBits buffer) pos placed := windowDraw below blank refill (b.refillFull buffer)
    have step := next placed below pos s here
    rw [← drawn] at step
    refine ih ?_ (consumeWindow refill (d.narrow placed below).2 (b.refillFull buffer)) step
    split
    · exact below
    · exact le
  | case2 placed b s done =>
    have last : placed = d.count := by omega
    exact ⟨pos, last ▸ here⟩

theorem sampledDrawn (inv : Nat → Nat → σ → Prop) (shake : Shake) (bits : Nat) (csprngState : CsprngState) {res : σ}
    (here : inv 0 0 res)
    (next : let buffer := Mem.ofBlock (csprngRandombytes shake (roundUp bits 8 / 8) csprngState).1
      ∀ placed < d.count, ∀ pos s, inv placed pos s →
      inv (if d.admits placed (d.draw (bufferBits buffer) pos placed) = true then placed + 1 else placed) (pos + d.width placed)
        (d.visit placed (d.draw (bufferBits buffer) pos placed) s)) :
    ∃ stop, inv d.count stop (sampleBits d shake bits res csprngState).1 :=
  runDrawn inv (fun _ beyond => dif_neg (Nat.not_lt_of_le beyond)) next (Nat.zero_le _) (startWindow _ _) here

end Runs

def extractedBits (shake : Shake) (bits : Nat) (csprngState : CsprngState) : Nat → Bool :=
  bufferBits (Mem.ofBlock (csprngRandombytes shake (roundUp bits 8 / 8) csprngState).1)

section Elements

variable {α : Type} {count width : Nat} {value : UInt64 → α} {admissible : α → Bool} {narrow : 0 < width ∧ width ≤ 32}
  {zero : admissible (value 0) = true}

theorem elementsDrawn (shake : Shake) (bits : Nat) (csprngState : CsprngState) (res : Vector α count) (i : Fin count) :
    (sampleBits (belowBound count width value admissible narrow zero) shake bits res csprngState).1[i] =
      value (UInt64.ofNat (nthAdmissible (extractedBits shake bits csprngState) width
        (fun x => admissible (value (UInt64.ofNat x))) i)) := by
  let stream := extractedBits shake bits csprngState
  let admits := fun x => admissible (value (UInt64.ofNat x))
  let inv := fun (placed pos : Nat) (res : Vector α count) => ∃ k, pos = k * width ∧ placed = admittedCount stream width admits k ∧
    ∀ i : Fin count, i < placed → res[i] = value (UInt64.ofNat (nthAdmissible stream width admits i))
  obtain ⟨stop, k, -, -, elements⟩ := @sampledDrawn _
    (belowBound count width value admissible narrow zero) inv shake bits csprngState res
    ⟨0, (Nat.zero_mul _).symm, (admittedCountNone _ _ _).symm, fun i below => absurd below (Nat.not_lt_zero _)⟩
    (by
      intro buffer placed below pos res here
      obtain ⟨k, rfl, rfl, elements⟩ := here
      change inv (if admits (fieldAt stream (k * width) width) = true then _ else _) _
        (res.setIfInBounds (admittedCount stream width admits k) (value (UInt64.ofNat (fieldAt stream (k * width) width))))
      refine ⟨k + 1, (Nat.succ_mul k width).symm, ?_⟩
      by_cases admitted : admits (fieldAt stream (k * width) width) = true
      · have step := admittedNext admitted
        rw [if_pos admitted]
        refine ⟨step.1.symm, fun i low => ?_⟩
        change (res.setIfInBounds _ _)[i.val] = _
        rw [Vector.getElem_setIfInBounds]
        split
        · rename_i own
          rw [← own, step.2]
        · exact elements i (by omega)
      · rw [if_neg admitted]
        refine ⟨(rejectedNext admitted).symm, fun i low => ?_⟩
        change (res.setIfInBounds _ _)[i.val] = _
        rw [Vector.getElem_setIfInBounds, if_neg (Nat.ne_of_gt low)]
        exact elements i low)
  exact elements i i.isLt

end Elements

section Values

variable (shake : Shake) (bits : Nat) (csprngState : CsprngState)

theorem wordNat {x : Nat} (small : x < 2 ^ 16) : (UInt64.ofNat x).toUInt16.toNat = x := by
  rw [UInt64.toNat_toUInt16, UInt64.toNat_ofNat', Nat.mod_eq_of_lt (Nat.lt_trans small (by decide)), Nat.mod_eq_of_lt small]

theorem byteNat {x : Nat} (small : x < 2 ^ 8) : (UInt64.ofNat x).toUInt8.toNat = x := by
  rw [UInt64.toNat_toUInt8, UInt64.toNat_ofNat', Nat.mod_eq_of_lt (Nat.lt_trans small (by decide)), Nat.mod_eq_of_lt small]

theorem wordNext {x : Nat} (small : x + 1 < 2 ^ 16) : (UInt64.ofNat x + 1).toUInt16.toNat = x + 1 := by
  have next : UInt64.ofNat x + 1 = UInt64.ofNat (x + 1) := (UInt64.ofNat_add x 1).symm
  rw [next, wordNat small]

theorem fpDrawn {count : Nat} (res : FpVec count) (i : Fin count) :
    (sampleBits (fpSampler count) shake bits res csprngState).1[i].toNat =
    nthAdmissible (extractedBits shake bits csprngState) bitsForP (fun x => decide (x < P)) i := by
  have value : ∀ x < 2 ^ bitsForP, (UInt64.ofNat x).toUInt16.toNat = x := fun x below => wordNat (Nat.lt_trans below (by decide))
  refine (congrArg UInt16.toNat (elementsDrawn shake bits csprngState res i)).trans ?_
  rw [value _ (nthAdmissibleBound _)]
  exact nthAdmissibleCongr (fun x below => by rw [value x below]) i

theorem fpStarDrawn {count : Nat} (res : FpVec count) (i : Fin count) :
    (sampleBits (fpStarSampler count) shake bits res csprngState).1[i].toNat =
    nthAdmissible (extractedBits shake bits csprngState) bitsForPMOne (fun x => decide (x + 1 < P)) i + 1 := by
  have value : ∀ x < 2 ^ bitsForPMOne, (UInt64.ofNat x + 1).toUInt16.toNat = x + 1 := fun x below =>
    wordNext (Nat.lt_of_le_of_lt below (by decide))
  refine (congrArg UInt16.toNat (elementsDrawn shake bits csprngState res i)).trans ?_
  rw [value _ (nthAdmissibleBound _)]
  exact congrArg (· + 1) (nthAdmissibleCongr (fun x below => by rw [value x below]) i)

theorem fzDrawn {count : Nat} (res : FzVec count) (i : Fin count) :
    (sampleBits (fzSampler count) shake bits res csprngState).1[i].toNat =
    nthAdmissible (extractedBits shake bits csprngState) bitsForZ (fun x => decide (x < Z)) i := by
  have value : ∀ x < 2 ^ bitsForZ, (UInt64.ofNat x).toUInt8.toNat = x := fun x below => byteNat (Nat.lt_trans below (by decide))
  refine (congrArg UInt8.toNat (elementsDrawn shake bits csprngState res i)).trans ?_
  rw [value _ (nthAdmissibleBound _)]
  exact nthAdmissibleCongr (fun x below => by rw [value x below]) i

end Values

theorem asRowsAt {α : Type} {rows cols : Nat} (flat : Vector α (rows * cols)) (i : Fin rows) (j : Fin cols) :
    ∃ a : Fin (rows * cols), a.val = i * cols + j ∧ (asRows flat)[i][j] = flat[a] := by
  have inside : i.val * cols + j.val < rows * cols := by
    have := Nat.mul_le_mul_right cols (Nat.succ_le_of_lt i.isLt)
    rw [Nat.succ_mul] at this
    omega
  refine ⟨⟨i.val * cols + j.val, inside⟩, rfl, ?_⟩
  simp only [asRows, readFin, Vector.getElem_ofFn]
  rfl

theorem samplersFirstAdmissible (p : Parameters) (shake : Shake) (csprngState : CsprngState) :
    let stream := fun bits => extractedBits shake bits csprngState
    let belowP := fun bits => nthAdmissible (stream bits) bitsForP fun x => decide (x < P)
    let belowPMOne := fun bits => nthAdmissible (stream bits) bitsForPMOne fun x => decide (x + 1 < P)
    let belowZ := fun bits => nthAdmissible (stream bits) bitsForZ fun x => decide (x < Z)
    (∀ i : Fin p.n, (csprngFpVec p shake csprngState).1[i].toNat = belowP p.bitsNFpCtRng i) ∧
      (∀ i : Fin p.t, (csprngFpVecChall1 p shake csprngState).1[i].toNat = belowPMOne p.bitsChall1FpstarCtRng i + 1) ∧
      (∀ (i : Fin p.k) (j : Fin (p.n - p.k)),
        (csprngFpMat p shake csprngState).1[i][j].toNat = belowP p.bitsVCtRng (i * (p.n - p.k) + j)) ∧
      (∀ i : Fin p.m, (csprngFzInfW p shake csprngState).1[i].toNat = belowZ p.bitsMFzCtRng i) ∧
      ∀ (i : Fin p.m) (j : Fin (p.n - p.m)),
        (csprngFzMat p shake csprngState).1[i][j].toNat = belowZ p.bitsWCtRng (i * (p.n - p.m) + j) := by
  intro stream belowP belowPMOne belowZ
  refine ⟨fpDrawn shake _ csprngState _, fpStarDrawn shake _ csprngState _, fun i j => ?_,
    fzDrawn shake _ csprngState _, fun i j => ?_⟩
  · obtain ⟨a, place, entry⟩ := asRowsAt
      (sampleBits (fpSampler (p.k * (p.n - p.k))) shake p.bitsVCtRng (Vector.replicate _ 0) csprngState).1 i j
    rw [← place]
    exact (congrArg UInt16.toNat entry).trans (fpDrawn shake _ csprngState _ a)
  · obtain ⟨a, place, entry⟩ := asRowsAt
      (sampleBits (fzSampler (p.m * (p.n - p.m))) shake p.bitsWCtRng (Vector.replicate _ 0) csprngState).1 i j
    rw [← place]
    exact (congrArg UInt8.toNat entry).trans (fzDrawn shake _ csprngState _ a)

end Armor.Cross
