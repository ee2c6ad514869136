import Mathlib.Data.Nat.Factorial.BigOperators
import Mathlib.GroupTheory.Perm.DomMulAct
import Mathlib.Logic.Equiv.Fintype

/-! The Fisher-Yates shuffle: at every position a number below what is left is drawn, and the entry
swapped with the one that far ahead. The sequences of draws are the permutations, one for one, so that
every arrangement of a word comes from equally many of them. -/
namespace Armor.Shuffle

abbrev Draws (n : Nat) := (c : Fin n) → Fin (n - c)

variable {n : Nat}

theorem destInside (d : Draws n) (c : Fin n) : c + (d c).val < n := by
  have := (d c).isLt
  omega

def Draws.dest (d : Draws n) (c : Fin n) : Fin n := ⟨c + d c, destInside d c⟩

theorem destCongr {d d' : Draws n} {c : Fin n} (same : d c = d' c) : d.dest c = d'.dest c :=
  Fin.ext (congrArg (fun x : Fin (n - c) => c.val + x.val) same)

def arranged (d : Draws n) : Nat → Equiv.Perm (Fin n)
  | 0 => 1
  | k + 1 => if below : k < n then arranged d k * Equiv.swap ⟨k, below⟩ (d.dest ⟨k, below⟩) else arranged d k

def arrangement (d : Draws n) : Equiv.Perm (Fin n) := arranged d n

theorem arrangedKept (d : Draws n) {k : Nat} (done : ¬ k < n) : arranged d (k + 1) = arranged d k := dif_neg done

theorem arrangedNext (d : Draws n) (c : Fin n) : arranged d (c + 1) = arranged d c * Equiv.swap c (d.dest c) := dif_pos c.isLt

theorem arrangedSettled (d : Draws n) (c : Fin n) (more : Nat) : arranged d (c + 1 + more) c = arranged d c (d.dest c) := by
  induction more with
  | zero => rw [Nat.add_zero, arrangedNext, Equiv.Perm.mul_apply, Equiv.swap_apply_left]
  | succ more ih =>
    rw [← Nat.add_assoc]
    by_cases below : c.val + 1 + more < n
    · have own : c ≠ ⟨c.val + 1 + more, below⟩ := fun same => by have := congrArg Fin.val same; dsimp only at this; omega
      have apart : c ≠ d.dest ⟨c.val + 1 + more, below⟩ := fun same => by
        have := congrArg Fin.val same
        dsimp only [Draws.dest] at this
        omega
      have next := arrangedNext d ⟨c.val + 1 + more, below⟩
      dsimp only at next
      rw [next, Equiv.Perm.mul_apply, Equiv.swap_apply_of_ne_of_ne own apart, ih]
    · rw [arrangedKept d below, ih]

theorem arrangementSettled (d : Draws n) (c : Fin n) : arrangement d c = arranged d c (d.dest c) := by
  have settled := arrangedSettled d c (n - (c + 1))
  rwa [Nat.add_sub_cancel' (Nat.succ_le_of_lt c.isLt)] at settled

theorem arrangementInjective : Function.Injective (arrangement (n := n)) := by
  intro d d' same
  have draw : ∀ c : Fin n, arranged d c = arranged d' c → d c = d' c := by
    intro c before
    have settled : arrangement d c = arrangement d' c := congrArg (fun π : Equiv.Perm (Fin n) => π c) same
    rw [arrangementSettled, arrangementSettled, before] at settled
    have dest := congrArg Fin.val ((arranged d' c).injective settled)
    dsimp only [Draws.dest] at dest
    exact Fin.ext (by omega)
  have front : ∀ k, arranged d k = arranged d' k := by
    intro k
    induction k with
    | zero => rfl
    | succ k ih =>
      by_cases below : k < n
      · have dest := destCongr (draw ⟨k, below⟩ ih)
        have next := arrangedNext d ⟨k, below⟩
        have next' := arrangedNext d' ⟨k, below⟩
        dsimp only at next next'
        rw [next, next', ih, dest]
      · rw [arrangedKept d below, arrangedKept d' below, ih]
  exact funext fun c => draw c (front c)

theorem drawsCard : Fintype.card (Draws n) = n.factorial := by
  rw [Fintype.card_pi]
  simp only [Fintype.card_fin]
  rw [Fin.prod_univ_eq_prod_range (fun c => n - c) n, ← Nat.descFactorial_eq_prod_range, Nat.descFactorial_self]

theorem arrangementBijective : Function.Bijective (arrangement (n := n)) := by
  refine (Fintype.bijective_iff_injective_and_card _).mpr ⟨arrangementInjective, ?_⟩
  rw [drawsCard, Fintype.card_perm, Fintype.card_fin]

section Words

def letters (f : Fin n → Bool) (b : Bool) : Nat := Fintype.card {i // f i = b}

theorem lettersFalse (f : Fin n → Bool) : letters f false = n - letters f true := by
  have others := Fintype.card_subtype_compl fun i => f i = true
  rw [Fintype.card_fin] at others
  rw [letters, letters, ← others]
  exact Fintype.card_congr (Equiv.subtypeEquivRight fun i => Bool.eq_false_iff)

theorem lettersRange (word : Nat → Bool) :
    letters (fun i : Fin n => word i) true = ((Finset.range n).filter fun i => word i = true).card := by
  rw [letters, Fintype.card_subtype, ← Finset.card_map Fin.valEmbedding]
  congr 1
  ext i
  simp only [Finset.mem_map, Finset.mem_filter, Finset.mem_univ, true_and, Fin.valEmbedding_apply, Finset.mem_range]
  constructor
  · rintro ⟨j, letter, rfl⟩
    exact ⟨j.isLt, letter⟩
  · rintro ⟨inside, letter⟩
    exact ⟨⟨i, inside⟩, letter, rfl⟩

theorem rearranged {f t : Fin n → Bool} (weight : letters f true = letters t true) : ∃ ρ : Equiv.Perm (Fin n), f ∘ ρ = t := by
  let ρ := (Fintype.equivOfCardEq weight).extendSubtype
  refine ⟨ρ.symm, funext fun i => ?_⟩
  obtain ⟨j, rfl⟩ := ρ.surjective i
  rw [Function.comp_apply, Equiv.symm_apply_apply]
  cases letter : f j with
  | true => exact ((Fintype.equivOfCardEq weight).extendSubtype_mem j letter).symm
  | false =>
    have other := (Fintype.equivOfCardEq weight).extendSubtype_not_mem j (by rw [letter]; decide)
    exact (Bool.eq_false_iff.mpr other).symm

theorem arrangementsOfCard {f t : Fin n → Bool} (weight : letters f true = letters t true) :
    Fintype.card {π : Equiv.Perm (Fin n) // f ∘ π = t} = (letters f true).factorial * (letters f false).factorial := by
  obtain ⟨ρ, rfl⟩ := rearranged weight
  have shifted : Fintype.card {π : Equiv.Perm (Fin n) // f ∘ π = f ∘ ρ} = Fintype.card {π : Equiv.Perm (Fin n) // f ∘ π = f} := by
    refine Fintype.card_congr ((Equiv.mulRight ρ⁻¹).subtypeEquiv fun π => ?_)
    change f ∘ π = f ∘ ρ ↔ f ∘ (π * ρ⁻¹ : Equiv.Perm (Fin n)) = f
    constructor
    · intro same
      funext i
      have here := congrFun same (ρ⁻¹ i)
      simpa using here
    · intro same
      funext i
      have here := congrFun same (ρ i)
      simpa using here
  rw [shifted, DomMulAct.stabilizer_card]
  exact Fintype.prod_bool _

theorem drawsOfCard {f t : Fin n → Bool} (weight : letters f true = letters t true) :
    Fintype.card {d : Draws n // f ∘ arrangement d = t} = (letters f true).factorial * (letters f false).factorial := by
  rw [← arrangementsOfCard weight]
  exact Fintype.card_congr ((Equiv.ofBijective _ arrangementBijective).subtypeEquiv fun _ => Iff.rfl)

end Words

end Armor.Shuffle
