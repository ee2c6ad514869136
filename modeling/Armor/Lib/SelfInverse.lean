import Mathlib.Algebra.CharP.Lemmas
import Mathlib.Algebra.Group.Hom.End
import Mathlib.Data.Nat.Prime.Basic

/-! Additive groups in which every element is its own negative. Powers of two distribute over the sum
of two commuting endomorphisms, and an endomorphism of finite order loses nothing. -/
namespace Armor.SelfInverse

variable {V : Type} [AddCommGroup V]

theorem twice (own : ∀ v : V, v + v = 0) (A : AddMonoid.End V) : A + A = 0 :=
  AddMonoidHom.ext fun v => own (A v)

theorem addPowTwo (own : ∀ v : V, v + v = 0) {A B : AddMonoid.End V} (commute : Commute A B) (k : Nat) :
    (A + B) ^ 2 ^ k = A ^ 2 ^ k + B ^ 2 ^ k := by
  obtain ⟨C, expanded⟩ := commute.exists_add_pow_prime_pow_eq Nat.prime_two k
  have cross : ((2 : Nat) : AddMonoid.End V) * A * B * C = 0 := by
    rw [mul_assoc, mul_assoc, Nat.cast_two, two_mul]
    exact twice own _
  rw [expanded, cross, add_zero]

theorem injectiveOfPow {A : AddMonoid.End V} {n : Nat} (order : A ^ (n + 1) = 1) : Function.Injective A := by
  intro v w same
  have back : ∀ u, (A ^ n) (A u) = u := fun u => by
    have here := DFunLike.congr_fun order u
    rwa [pow_succ] at here
  rw [← back v, same, back]

end Armor.SelfInverse
