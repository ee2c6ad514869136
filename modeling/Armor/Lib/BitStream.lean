import Mathlib.Data.Nat.Bitwise

/-! Values of a fixed width laid out bit after bit, lowest bit first. Two layouts of one stream
hold the same values. -/
namespace Armor.BitStream

variable {width : Nat}

def bit (width : Nat) (v : Nat → Nat) (i : Nat) : Bool := (v (i / width)).testBit (i % width)

theorem bitAt (v : Nat → Nat) {a c : Nat} (below : c < width) : bit width v (a * width + c) = (v a).testBit c := by
  have positive : 0 < width := Nat.lt_of_le_of_lt (Nat.zero_le c) below
  rw [bit, Nat.mul_comm, Nat.mul_add_div positive, Nat.div_eq_of_lt below, Nat.add_zero, Nat.mul_add_mod,
    Nat.mod_eq_of_lt below]

theorem valuesOf {v w : Nat → Nat} {a : Nat} (left : v a < 2 ^ width) (right : w a < 2 ^ width)
    (same : ∀ c < width, bit width v (a * width + c) = bit width w (a * width + c)) : v a = w a := by
  refine Nat.eq_of_testBit_eq fun c => ?_
  by_cases below : c < width
  · have here := same c below
    rwa [bitAt v below, bitAt w below] at here
  · have high : 2 ^ width ≤ 2 ^ c := Nat.pow_le_pow_right Nat.two_pos (Nat.le_of_not_lt below)
    rw [Nat.testBit_eq_false_of_lt (Nat.lt_of_lt_of_le left high),
      Nat.testBit_eq_false_of_lt (Nat.lt_of_lt_of_le right high)]

theorem bitZero {v : Nat → Nat} {i : Nat} (zero : v (i / width) = 0) : bit width v i = false := by
  rw [bit, zero, Nat.zero_testBit]

end Armor.BitStream
