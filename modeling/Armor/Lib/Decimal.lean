import Mathlib.Data.List.Basic
import Mathlib.Data.List.Induction

/-! Decimal numerals: reading a string of digits and writing the number back gives the string
exactly where it has no leading zero. -/
namespace Armor.Decimal

def isNumber (s : String) : Bool := s.toList ≠ [] && s.toList.all Char.isDigit

def value (s : String) : Nat := Nat.ofDigitChars 10 s.toList 0

def NoLeadingZero (s : String) : Prop := s.toList = ['0'] ∨ s.toList.head? ≠ some '0'

instance (s : String) : Decidable (NoLeadingZero s) := inferInstanceAs (Decidable (_ ∨ _))

theorem valueRepr (n : Nat) : value n.repr = n := by
  rw [value, Nat.toList_repr, Nat.ofDigitChars_toDigits (by decide) (by decide)]

theorem reprInj {n m : Nat} (same : n.repr = m.repr) : n = m := by
  rw [← valueRepr n, ← valueRepr m, same]

theorem intInj {n m : Int} (same : toString n = toString m) : n = m := by
  have unsigned : ∀ n k : Nat, n.repr ≠ "-" ++ k.repr := by
    intro n k same
    have first : n.repr.toList = '-' :: k.repr.toList := by
      rw [same, String.toList_append]
      rfl
    rw [Nat.toList_repr] at first
    have member : '-' ∈ Nat.toDigits 10 n := first ▸ List.mem_cons_self
    have digit : '-'.isDigit = true := Nat.isDigit_of_mem_toDigits (by decide) (by decide) member
    cases digit
  cases n with
  | ofNat n =>
    cases m with
    | ofNat m => exact congrArg Int.ofNat (reprInj same)
    | negSucc m => exact absurd same (unsigned n (m + 1))
  | negSucc n =>
    cases m with
    | ofNat m => exact absurd same.symm (unsigned m (n + 1))
    | negSucc m =>
      have letters := congrArg String.toList same
      change ("-" ++ (n + 1).repr).toList = ("-" ++ (m + 1).repr).toList at letters
      rw [String.toList_append, String.toList_append] at letters
      have digits := reprInj (String.toList_inj.mp (List.append_cancel_left letters))
      exact congrArg Int.negSucc (Nat.succ.inj digits)

theorem digitOf {c : Char} (digit : c.isDigit = true) :
    c.toNat - '0'.toNat < 10 ∧ Nat.digitChar (c.toNat - '0'.toNat) = c := by
  have bounds : '0'.toNat ≤ c.toNat ∧ c.toNat ≤ '9'.toNat := by
    simp only [Char.isDigit, Bool.and_eq_true, decide_eq_true_eq] at digit
    exact ⟨digit.1, digit.2⟩
  have table : ∀ k < 10, Nat.digitChar k = Char.ofNat (k + '0'.toNat) := by decide
  have small : c.toNat - '0'.toNat < 10 := by
    change c.toNat - 48 < 10
    change 48 ≤ c.toNat ∧ c.toNat ≤ 57 at bounds
    omega
  refine ⟨small, ?_⟩
  rw [table _ small, Nat.sub_add_cancel bounds.1, Char.ofNat_toNat]

theorem ofDigitCharsAppend (digits : List Char) (c : Char) :
    Nat.ofDigitChars 10 (digits ++ [c]) 0 = 10 * Nat.ofDigitChars 10 digits 0 + (c.toNat - '0'.toNat) := by
  rw [Nat.ofDigitChars_append, Nat.ofDigitChars_cons, Nat.ofDigitChars_nil]

theorem headAppend {digits : List Char} (some_ : digits ≠ []) (more : List Char) :
    (digits ++ more).head? = digits.head? := by
  cases digits with
  | nil => exact absurd rfl some_
  | cons c digits => rfl

theorem toDigitsValue (digits : List Char) (number : digits ≠ [] ∧ ∀ c ∈ digits, c.isDigit = true)
    (leads : digits.head? ≠ some '0') :
    0 < Nat.ofDigitChars 10 digits 0 ∧ Nat.toDigits 10 (Nat.ofDigitChars 10 digits 0) = digits := by
  induction digits using List.reverseRecOn with
  | nil => exact absurd rfl number.1
  | append_singleton digits c ih =>
    have digit := digitOf (number.2 c (List.mem_append_right _ List.mem_cons_self))
    rw [ofDigitCharsAppend]
    by_cases single : digits = []
    · subst single
      have zeroValue : ∀ k < 10, k = 0 → Nat.digitChar k = '0' := by decide
      rw [Nat.ofDigitChars_nil, Nat.mul_zero, Nat.zero_add, Nat.toDigits_of_lt_base digit.1, digit.2]
      refine ⟨Nat.pos_of_ne_zero fun zero => leads ?_, rfl⟩
      exact congrArg some (digit.2.symm.trans (zeroValue _ digit.1 zero))
    · have before := ih ⟨single, fun d member => number.2 d (List.mem_append_left _ member)⟩
        (by rwa [headAppend single] at leads)
      rw [← Nat.toDigits_append_toDigits (by decide) before.1 digit.1, before.2, Nat.toDigits_of_lt_base digit.1, digit.2]
      exact ⟨by have := before.1; omega, rfl⟩

theorem toDigitsLeads (n : Nat) : Nat.toDigits 10 n = ['0'] ∨ (Nat.toDigits 10 n).head? ≠ some '0' := by
  induction n using Nat.strongRecOn with
  | ind n ih =>
    by_cases small : n < 10
    · have table : ∀ k < 10, [Nat.digitChar k] = ['0'] ∨ [Nat.digitChar k].head? ≠ some '0' := by decide
      rw [Nat.toDigits_of_lt_base small]
      exact table n small
    · have positive : 0 < n / 10 := by omega
      have split : Nat.toDigits 10 n = Nat.toDigits 10 (n / 10) ++ [Nat.digitChar (n % 10)] :=
        Nat.toDigits_of_base_le (by decide) (by omega)
      rw [split, headAppend Nat.toDigits_ne_nil]
      refine .inr fun zero => ?_
      cases ih (n / 10) (by omega) with
      | inl single =>
        have back := Nat.ofDigitChars_toDigits (b := 10) (n := n / 10) (by decide) (by decide)
        rw [single] at back
        have zeroBack : Nat.ofDigitChars 10 ['0'] 0 = 0 := rfl
        omega
      | inr leads => exact leads zero

theorem reprValue {s : String} (number : isNumber s = true) : (value s).repr = s ↔ NoLeadingZero s := by
  simp only [isNumber, Bool.and_eq_true, decide_eq_true_eq, List.all_eq_true, ne_eq] at number
  rw [← String.toList_inj, Nat.toList_repr]
  constructor
  · intro same
    have leads := toDigitsLeads (value s)
    rwa [same] at leads
  · rintro (zero | leads)
    · rw [value, zero]
      rfl
    · exact (toDigitsValue s.toList number leads).2

end Armor.Decimal
