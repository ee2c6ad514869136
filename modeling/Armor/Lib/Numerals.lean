import Armor.Lib.Decimal
import Mathlib.Algebra.Group.Int.Defs
import Mathlib.Algebra.Group.Nat.Defs

/-! Strings of digits as they are read by shell arithmetic, by the shell's `test` and by a C compiler, beside
their decimal value: a leading zero makes a numeral octal for the first and the last. -/
namespace Armor.Numerals
open Decimal (isNumber value)

def isOctal (c : Char) : Bool := c.isDigit && c.toNat < '8'.toNat

def octalValue (digits : List Char) : Nat := Nat.ofDigitChars 8 digits 0

def decimalValue (digits : List Char) : Nat := Nat.ofDigitChars 10 digits 0

def leadsZero (s : String) : Bool := s.toList.head? = some '0'

def literal (s : String) : Option Nat :=
  if leadsZero s then if s.toList.all isOctal then some (octalValue s.toList) else none
  else some (decimalValue s.toList)

def wrap (n : Int) : Int := n.bmod (2 ^ 64)

/-- `$(( s ))` -/
def arithmetic (s : String) : Option Int := (literal s).map fun n : Nat => wrap n

/-- An operand of `-lt` and its like, which is no integer for the shell where 64 bits do not hold it. -/
def operand (s : String) : Option Int := if value s < 2 ^ 63 then some (value s) else none

/-- An integer constant of C, which has no type where 64 bits do not hold it. -/
def cLiteral (s : String) : Option Nat := (literal s).filter (· < 2 ^ 64)

theorem wrapSpec (n : Int) : wrap n = if n % 2 ^ 64 < 2 ^ 63 then n % 2 ^ 64 else n % 2 ^ 64 - 2 ^ 64 := by
  unfold wrap Int.bmod
  rfl

theorem wrapSmall {n : Int} (low : -2 ^ 63 ≤ n) (high : n < 2 ^ 63) : wrap n = n := by
  rw [wrapSpec]
  omega

theorem wrapBounds (n : Int) : -2 ^ 63 ≤ wrap n ∧ wrap n < 2 ^ 63 := by
  rw [wrapSpec]
  omega

theorem wrapNonnegative {n : Int} (low : 0 ≤ n) (high : n < 2 ^ 64) (nonnegative : 0 ≤ wrap n) : wrap n = n := by
  rw [wrapSpec] at nonnegative ⊢
  omega

theorem literalRepr (n : Nat) : literal n.repr = some n := by
  have back : decimalValue n.repr.toList = n := Decimal.valueRepr n
  unfold literal leadsZero
  cases Decimal.toDigitsLeads n with
  | inl zero =>
    rw [Nat.toList_repr, zero] at back ⊢
    rw [← back]
    rfl
  | inr leads =>
    rw [← Nat.toList_repr] at leads
    rw [if_neg fun first => leads (of_decide_eq_true first), back]

section Octal

theorem decimalAppend (digits : List Char) (c : Char) :
    decimalValue (digits ++ [c]) = 10 * decimalValue digits + (c.toNat - '0'.toNat) :=
  Decimal.ofDigitCharsAppend digits c

theorem octalAppend (digits : List Char) (c : Char) :
    octalValue (digits ++ [c]) = 8 * octalValue digits + (c.toNat - '0'.toNat) := by
  rw [octalValue, Nat.ofDigitChars_append, Nat.ofDigitChars_cons, Nat.ofDigitChars_nil]
  rfl

theorem octalDigit {c : Char} (octal : isOctal c = true) : c.toNat - '0'.toNat < 8 := by
  simp only [isOctal, Bool.and_eq_true, decide_eq_true_eq] at octal
  have small := octal.2
  change c.toNat < 56 at small
  change c.toNat - 48 < 8
  omega

def Aligned (inOctal inDecimal : Nat) : Prop :=
  ∀ digits : List Char, (∀ c ∈ digits, isOctal c = true) →
    (octalValue digits < inOctal ↔ decimalValue digits < inDecimal) ∧
      (octalValue digits = inOctal ↔ decimalValue digits = inDecimal)

theorem alignedZero : Aligned 0 0 := by
  intro digits octal
  refine ⟨iff_of_false (Nat.not_lt_zero _) (Nat.not_lt_zero _), ?_⟩
  induction digits using List.reverseRecOn with
  | nil => exact Iff.rfl
  | append_singleton digits c ih =>
    have before := ih fun d member => octal d (List.mem_append_left _ member)
    rw [octalAppend, decimalAppend]
    omega

theorem Aligned.digit {inOctal inDecimal : Nat} (aligned : Aligned inOctal inDecimal) {e : Nat} (small : e < 8) :
    Aligned (8 * inOctal + e) (10 * inDecimal + e) := by
  intro digits octal
  induction digits using List.reverseRecOn with
  | nil =>
    have nothing := aligned [] octal
    change (0 < inOctal ↔ 0 < inDecimal) ∧ (0 = inOctal ↔ 0 = inDecimal) at nothing
    change (0 < 8 * inOctal + e ↔ 0 < 10 * inDecimal + e) ∧ (0 = 8 * inOctal + e ↔ 0 = 10 * inDecimal + e)
    omega
  | append_singleton digits c _ =>
    have before := aligned digits fun d member => octal d (List.mem_append_left _ member)
    have last := octalDigit (octal c (List.mem_append_right _ List.mem_cons_self))
    rw [octalAppend, decimalAppend]
    omega

theorem octalLeDecimal (digits : List Char) : octalValue digits ≤ decimalValue digits := by
  induction digits using List.reverseRecOn with
  | nil => exact Nat.le_refl 0
  | append_singleton digits c ih =>
    rw [octalAppend, decimalAppend]
    omega

end Octal

section Zeros

def stripZeros (s : String) : List Char := s.toList.dropWhile (· = '0')

theorem stripValue (digits : List Char) : decimalValue (digits.dropWhile (· = '0')) = decimalValue digits := by
  induction digits with
  | nil => rfl
  | cons c digits ih =>
    rw [List.dropWhile_cons]
    split
    · next zero =>
      have isZero : c = '0' := of_decide_eq_true zero
      rw [ih, isZero, decimalValue, decimalValue, Nat.ofDigitChars_cons]
      rfl
    · rfl

theorem stripLeads (digits : List Char) : (digits.dropWhile (· = '0')).head? ≠ some '0' := by
  intro first
  have found := List.head?_dropWhile_not (· = '0') digits
  rw [first] at found
  exact absurd found (by decide)

theorem valueStrip {s t : String} (number : isNumber s = true) (other : isNumber t = true) :
    value s = value t ↔ stripZeros s = stripZeros t := by
  have digits : ∀ {s : String}, isNumber s = true → ∀ c ∈ s.toList, c.isDigit = true := by
    intro s number
    simp only [isNumber, Bool.and_eq_true, List.all_eq_true] at number
    exact number.2
  have same : ∀ s : String, decimalValue (stripZeros s) = value s := fun s => stripValue s.toList
  constructor
  · intro equal
    rw [← same s, ← same t] at equal
    have canonical : ∀ {s : String}, isNumber s = true → stripZeros s =
        if decimalValue (stripZeros s) = 0 then [] else Nat.toDigits 10 (decimalValue (stripZeros s)) := by
      intro s number
      by_cases none_ : stripZeros s = []
      · rw [none_]
        rfl
      · have back := Decimal.toDigitsValue (stripZeros s)
          ⟨none_, fun c member => digits number c (List.dropWhile_sublist _ |>.subset member)⟩ (stripLeads s.toList)
        change 0 < decimalValue (stripZeros s) ∧ Nat.toDigits 10 (decimalValue (stripZeros s)) = stripZeros s at back
        rw [if_neg (Nat.ne_of_gt back.1)]
        exact back.2.symm
    rw [canonical number, canonical other, equal]
  · intro equal
    rw [← same s, ← same t, equal]

end Zeros

end Armor.Numerals
