import Armor.Lib.BitStream
import Mathlib.Data.Nat.Nth

/-! Numbers read from a stream of bits, lowest bit first, and rejection sampling on consecutive fields
of one width: the `i`-th value drawn is the `i`-th admissible field. -/
namespace Armor.BitStream

def fieldAt (bits : Nat → Bool) (pos width : Nat) : Nat := Nat.ofBits fun k : Fin width => bits (pos + k)

theorem fieldBound (bits : Nat → Bool) (pos width : Nat) : fieldAt bits pos width < 2 ^ width := Nat.ofBits_lt_two_pow _

theorem fieldOf {bits : Nat → Bool} {pos width x : Nat} (same : ∀ k < width, x.testBit k = bits (pos + k)) :
    x % 2 ^ width = fieldAt bits pos width := by
  rw [← Nat.ofBits_testBit]
  exact congrArg Nat.ofBits (funext fun k => same k.val k.isLt)

section Admissible

variable (bits : Nat → Bool) (width : Nat) (admissible : Nat → Bool)

def Admitted (k : Nat) : Prop := admissible (fieldAt bits (k * width) width) = true

instance admittedDecidable : DecidablePred (Admitted bits width admissible) := fun _ => inferInstanceAs (Decidable (_ = true))

noncomputable def nthAdmissible (i : Nat) : Nat := fieldAt bits (Nat.nth (Admitted bits width admissible) i * width) width

def admittedCount (k : Nat) : Nat := Nat.count (Admitted bits width admissible) k

theorem admittedCountNone : admittedCount bits width admissible 0 = 0 := Nat.count_zero _

variable {bits width admissible}

theorem admittedNext {k : Nat} (admitted : admissible (fieldAt bits (k * width) width) = true) :
    admittedCount bits width admissible (k + 1) = admittedCount bits width admissible k + 1 ∧
      nthAdmissible bits width admissible (admittedCount bits width admissible k) = fieldAt bits (k * width) width := by
  constructor
  · exact (Nat.count_succ _ k).trans (congrArg _ (if_pos admitted))
  · unfold nthAdmissible admittedCount
    rw [Nat.nth_count admitted]

theorem rejectedNext {k : Nat} (rejected : ¬ admissible (fieldAt bits (k * width) width) = true) :
    admittedCount bits width admissible (k + 1) = admittedCount bits width admissible k :=
  (Nat.count_succ _ k).trans (congrArg _ (if_neg rejected))

theorem nthAdmissibleBound (i : Nat) : nthAdmissible bits width admissible i < 2 ^ width := fieldBound _ _ _

theorem nthAdmissibleCongr {admissible' : Nat → Bool} (same : ∀ x < 2 ^ width, admissible x = admissible' x) (i : Nat) :
    nthAdmissible bits width admissible i = nthAdmissible bits width admissible' i := by
  have admitted : Admitted bits width admissible = Admitted bits width admissible' := by
    funext k
    unfold Admitted
    rw [same _ (fieldBound _ _ _)]
  unfold nthAdmissible
  rw [admitted]

end Admissible

end Armor.BitStream
