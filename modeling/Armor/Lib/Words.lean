import Armor.Lib.Memory
import Mathlib.Data.Nat.Bitwise

/-! 64-bit words as eight bytes, least significant first. -/
namespace Armor.Words

def littleEndian : Nat → (Nat → UInt8) → Nat
  | 0, _ => 0
  | n + 1, g => (g 0).toNat + 256 * littleEndian n (fun k => g (k + 1))

def byteOf (w : UInt64) (k : Nat) : UInt8 := UInt8.ofNat (w.toNat >>> (8 * k))

def ofBytes (g : Nat → UInt8) : UInt64 := UInt64.ofNat (littleEndian 8 g)

theorem littleEndianBound (n : Nat) (g : Nat → UInt8) : littleEndian n g < 256 ^ n := by
  induction n generalizing g with
  | zero => exact Nat.one_pos
  | succ n ih =>
    have rest := ih (fun k => g (k + 1))
    have byte := (g 0).toNat_lt
    rw [littleEndian, Nat.pow_succ]
    omega

theorem littleEndianByte {n k : Nat} (g : Nat → UInt8) (h : k < n) :
    littleEndian n g >>> (8 * k) % 256 = (g k).toNat := by
  induction n generalizing g k with
  | zero => omega
  | succ n ih =>
    have byte := (g 0).toNat_lt
    cases k with
    | zero =>
      simp only [littleEndian, Nat.mul_zero, Nat.shiftRight_zero]
      omega
    | succ k =>
      have rest := ih (fun k => g (k + 1)) (Nat.lt_of_succ_lt_succ h)
      have drop : littleEndian (n + 1) g >>> 8 = littleEndian n (fun k => g (k + 1)) := by
        rw [littleEndian, Nat.shiftRight_eq_div_pow]
        omega
      rw [show 8 * (k + 1) = 8 + 8 * k by omega, Nat.shiftRight_add, drop]
      exact rest

theorem littleEndianOf {n x : Nat} (bound : x < 256 ^ n) :
    littleEndian n (fun k => UInt8.ofNat (x >>> (8 * k))) = x := by
  induction n generalizing x with
  | zero =>
    rw [littleEndian]
    omega
  | succ n ih =>
    have rest := @ih (x >>> 8) (by
      rw [Nat.shiftRight_eq_div_pow]
      rw [Nat.pow_succ] at bound
      omega)
    have split : ∀ k, x >>> (8 * (k + 1)) = (x >>> 8) >>> (8 * k) := fun k => by
      rw [← Nat.shiftRight_add, show 8 * (k + 1) = 8 + 8 * k by omega]
    simp only [littleEndian, split, rest, Nat.mul_zero, Nat.shiftRight_zero, UInt8.toNat_ofNat']
    rw [Nat.shiftRight_eq_div_pow]
    omega

theorem byteOfBytes {k : Nat} (g : Nat → UInt8) (h : k < 8) : byteOf (ofBytes g) k = g k := by
  have small : littleEndian 8 g < 2 ^ 64 := littleEndianBound 8 g
  rw [← UInt8.toNat_inj, byteOf, ofBytes, UInt64.toNat_ofNat', Nat.mod_eq_of_lt small, UInt8.toNat_ofNat']
  exact littleEndianByte g h

theorem ofBytesOf (w : UInt64) : ofBytes (byteOf w) = w := by
  have small : w.toNat < 256 ^ 8 := w.toNat_lt
  rw [← UInt64.toNat_inj, ofBytes, UInt64.toNat_ofNat']
  unfold byteOf
  rw [littleEndianOf small, Nat.mod_eq_of_lt w.toNat_lt]

theorem ofBytesCongr {g g' : Nat → UInt8} (same : ∀ k < 8, g k = g' k) : ofBytes g = ofBytes g' := by
  simp only [ofBytes, littleEndian, same 0 (by decide), same 1 (by decide), same 2 (by decide),
    same 3 (by decide), same 4 (by decide), same 5 (by decide), same 6 (by decide), same 7 (by decide)]

theorem wordExt {w w' : UInt64} (same : ∀ k < 8, byteOf w k = byteOf w' k) : w = w' := by
  rw [← ofBytesOf w, ← ofBytesOf w']
  exact ofBytesCongr same

@[simp] theorem byteOfXor (w w' : UInt64) (k : Nat) : byteOf (w ^^^ w') k = byteOf w k ^^^ byteOf w' k := by
  rw [← UInt8.toNat_inj, UInt8.toNat_xor, byteOf, byteOf, byteOf, UInt8.toNat_ofNat', UInt8.toNat_ofNat',
    UInt8.toNat_ofNat', UInt64.toNat_xor, Nat.shiftRight_xor_distrib, ← Nat.xor_mod_two_pow]

@[simp] theorem byteOfZero (k : Nat) : byteOf 0 k = 0 := by
  rw [byteOf, show (0 : UInt64).toNat = 0 from rfl, Nat.zero_shiftRight]
  rfl

end Armor.Words
