import Armor.Cross.Drawn
import Armor.Lib.Shuffle

/-! The second challenge as a Fisher-Yates shuffle of the bit stream: which draws it takes, and that no
string of its weight is preferred by them. -/
namespace Armor.Cross

open BitStream
open Shuffle (Draws arranged arrangement letters)

variable {p : Parameters}

def ones (p : Parameters) : Mem := fun i => if i < p.w then 1 else 0

def swapped (p : Parameters) (draws : Nat → Nat) (n : Nat) : Mem := Loop.upTo n (fun c s => swap s c (c + draws c)) (ones p)

def drawAt (draws : Draws p.t) (c : Nat) : Nat := if inside : c < p.t then draws ⟨c, inside⟩ else 0

def shuffled (draws : Draws p.t) : Mem := swapped p (drawAt draws) p.t

theorem swappedNext (draws : Nat → Nat) (n : Nat) : swapped p draws (n + 1) = swap (swapped p draws n) n (n + draws n) :=
  Loop.upToSucc n _ _

theorem swappedCongr {draws draws' : Nat → Nat} {n : Nat} (same : ∀ c < n, draws c = draws' c) :
    swapped p draws n = swapped p draws' n :=
  Loop.upToCongr (fun c below s => by rw [same c below]) _

theorem finSwap {n : Nat} (a b i : Fin n) : (Equiv.swap a b i).val = Equiv.swap a.val b.val i.val := by
  rw [Equiv.swap_apply_def, Equiv.swap_apply_def]
  simp only [Fin.ext_iff]
  split
  · rfl
  · split <;> rfl

theorem swappedArranged (draws : Draws p.t) {k : Nat} (le : k ≤ p.t) (i : Fin p.t) :
    swapped p (drawAt draws) k i = ones p (arranged draws k i) := by
  induction k generalizing i with
  | zero => rfl
  | succ k ih =>
    have next := Shuffle.arrangedNext draws ⟨k, le⟩
    dsimp only at next
    rw [swappedNext, swapAt, next, Equiv.Perm.mul_apply, ← ih (Nat.le_of_succ_le le), finSwap]
    dsimp only [Shuffle.Draws.dest, drawAt]
    rw [dif_pos (Nat.lt_of_succ_le le)]

theorem shuffledAt (draws : Draws p.t) (i : Fin p.t) : shuffled draws i = ones p (arrangement draws i) :=
  swappedArranged draws (Nat.le_refl p.t) i

def positionWidth (p : Parameters) (c : Nat) : Nat := bitsToRepresent (p.t - 1 - c)

def Rejected (p : Parameters) (bits : Nat → Bool) (c start rejected : Nat) : Prop :=
  ∀ q < rejected, p.t - c ≤ fieldAt bits (start + q * positionWidth p c) (positionWidth p c)

structure DrawnAt (p : Parameters) (bits : Nat → Bool) (start draws : Nat → Nat) (c : Nat) : Prop where
  low : draws c < p.t - c
  first : ∃ rejected, Rejected p bits c (start c) rejected ∧
    draws c = fieldAt bits (start c + rejected * positionWidth p c) (positionWidth p c) ∧
    start (c + 1) = start c + (rejected + 1) * positionWidth p c

structure Shuffling (p : Parameters) (bits : Nat → Bool) (placed pos : Nat) (s : Mem) : Prop where
  drawn : ∃ start draws : Nat → Nat, start 0 = 0 ∧ (∀ c < placed, DrawnAt p bits start draws c) ∧ s = swapped p draws placed ∧
    ∃ rejected, Rejected p bits placed (start placed) rejected ∧ pos = start placed + rejected * positionWidth p placed

section Step

variable {bits : Nat → Bool} {placed pos : Nat} {s : Mem}

theorem shufflingStart : Shuffling p bits 0 0 (ones p) :=
  ⟨fun _ => 0, fun _ => 0, rfl, fun c below => absurd below (Nat.not_lt_zero c), rfl, 0,
    fun q below => absurd below (Nat.not_lt_zero q), (Nat.zero_add _).trans (Nat.zero_mul _) |>.symm⟩

theorem shufflingRejected (here : Shuffling p bits placed pos s)
    (large : p.t - placed ≤ fieldAt bits pos (positionWidth p placed)) :
    Shuffling p bits placed (pos + positionWidth p placed) s := by
  obtain ⟨start, draws, zero, drawn, string, rejected, before, place⟩ := here.drawn
  refine ⟨start, draws, zero, drawn, string, rejected + 1, fun q below => ?_, ?_⟩
  · rcases Nat.lt_succ_iff_lt_or_eq.mp below with earlier | rfl
    · exact before q earlier
    · rwa [← place]
  · rw [place, Nat.succ_mul, Nat.add_assoc]

theorem shufflingDrawn (here : Shuffling p bits placed pos s) (low : fieldAt bits pos (positionWidth p placed) < p.t - placed) :
    Shuffling p bits (placed + 1) (pos + positionWidth p placed)
      (swap s placed (placed + fieldAt bits pos (positionWidth p placed))) := by
  obtain ⟨start, draws, zero, drawn, string, rejected, before, place⟩ := here.drawn
  let draws' := Function.update draws placed (fieldAt bits pos (positionWidth p placed))
  let start' := Function.update start (placed + 1) (pos + positionWidth p placed)
  have startKept : ∀ c ≤ placed, start' c = start c := fun c le => Function.update_of_ne (by omega) _ _
  have drawsKept : ∀ c < placed, draws' c = draws c := fun c below => Function.update_of_ne (Nat.ne_of_lt below) _ _
  have startNext : start' (placed + 1) = pos + positionWidth p placed := Function.update_self _ _ _
  have drawsNext : draws' placed = fieldAt bits pos (positionWidth p placed) := Function.update_self _ _ _
  refine ⟨start', draws', (startKept 0 (Nat.zero_le _)).trans zero, fun c below => ?_, ?_, 0,
    fun q none => absurd none (Nat.not_lt_zero q), ?_⟩
  · rcases Nat.lt_succ_iff_lt_or_eq.mp below with earlier | rfl
    · obtain ⟨small, first⟩ := drawn c earlier
      rw [← drawsKept c earlier] at small
      refine ⟨small, ?_⟩
      rw [drawsKept c earlier, startKept c (Nat.le_of_lt earlier), startKept (c + 1) earlier]
      exact first
    · refine ⟨drawsNext ▸ low, rejected, ?_, ?_, ?_⟩
      · rw [startKept c (Nat.le_refl c)]
        exact before
      · rw [drawsNext, startKept c (Nat.le_refl c), ← place]
      · rw [startNext, startKept c (Nat.le_refl c), place, Nat.succ_mul, Nat.add_assoc]
  · rw [swappedNext, drawsNext, string, swappedCongr drawsKept]
  · rw [startNext, Nat.zero_mul, Nat.add_zero]

end Step

theorem positionNarrow : ∀ n < 512, bitsToRepresent n ≤ 9 := by decide +kernel

theorem digestShuffling (shake : Shake) (digest : Block p.hashLength) :
    let stream := extractedBits shake p.bitsCwstrRng
      (csprngInitialize digest.toList (csprngDomainSepConst + UInt16.ofNat (3 * p.t)))
    ∃ stop, Shuffling p stream p.t stop (expandDigestToFixedWeight p shake digest) := by
  intro stream
  refine sampledDrawn (d := shuffle p) (fun placed pos s => Shuffling p stream placed pos s) shake _ _ shufflingStart ?_
  intro buffer placed below pos s here
  have rounds : p.t ≤ 512 := p.roundsFit
  have narrow : positionWidth p placed ≤ 9 := positionNarrow _ (by change placed < p.t at below; omega)
  have small : fieldAt stream pos (positionWidth p placed) < 2 ^ 16 :=
    Nat.lt_of_lt_of_le (fieldBound _ _ _) (Nat.pow_le_pow_right Nat.two_pos (by omega))
  have candidate : ((shuffle p).draw stream pos placed).toUInt16.toNat =
    fieldAt stream pos (positionWidth p placed) := wordNat small
  change Shuffling p stream
    (if decide (((shuffle p).draw stream pos placed).toUInt16.toNat < p.t - placed) = true then placed + 1 else placed)
    (pos + positionWidth p placed)
    (if ((shuffle p).draw stream pos placed).toUInt16.toNat < p.t - placed
      then swap s placed (placed + ((shuffle p).draw stream pos placed).toUInt16.toNat) else s)
  rw [candidate]
  by_cases low : fieldAt stream pos (positionWidth p placed) < p.t - placed
  · rw [if_pos low, if_pos (decide_eq_true low)]
    exact shufflingDrawn here low
  · rw [if_neg low, if_neg fun chosen => low (of_decide_eq_true chosen)]
    exact shufflingRejected here (Nat.le_of_not_lt low)

def isOne (string : Mem) (i : Nat) : Bool := decide (string i = 1)

theorem fixedWeightLetters {string : Mem} (fixed : FixedWeight p string) :
    letters (fun i : Fin p.t => isOne string i) true = p.w := by
  rw [Shuffle.lettersRange, ← fixed.weight]
  refine congrArg Finset.card (Finset.filter_congr fun i _ => ?_)
  exact decide_eq_true_iff

theorem shuffledFixedWeight (draws : Draws p.t) : FixedWeight p (shuffled draws) := by
  refine Loop.upToInvariant (fun _ s => FixedWeight p s) (initialFixedWeight p) fun c below s fixed => fixed.swap below ?_
  unfold drawAt
  rw [dif_pos below]
  exact Shuffle.destInside draws ⟨c, below⟩

theorem sameOnes {s s' : Mem} (fixed : FixedWeight p s) (fixed' : FixedWeight p s') :
    s = s' ↔ (fun i : Fin p.t => isOne s i) = fun i : Fin p.t => isOne s' i := by
  constructor
  · rintro rfl
    rfl
  · intro same
    funext i
    rcases Nat.lt_or_ge i p.t with inside | beyond
    · have here := congrFun same ⟨i, inside⟩
      have both : s i = 1 ↔ s' i = 1 := decide_eq_decide.mp here
      rcases fixed.binary i inside with zero | one
      · rcases fixed'.binary i inside with zero' | one'
        · rw [zero, zero']
        · rw [both.mpr one', one']
      · rw [one, both.mp one]
    · rw [fixed.ends i beyond, fixed'.ends i beyond]

theorem shuffledWord (draws : Draws p.t) :
    (fun i : Fin p.t => isOne (shuffled draws) i) = (fun i : Fin p.t => isOne (ones p) i) ∘ arrangement draws := by
  funext i
  rw [Function.comp_apply]
  unfold isOne
  rw [shuffledAt]

theorem challengeUnbiased (p : Parameters) (shake : Shake) :
    (∀ digest : Block p.hashLength,
      let stream := extractedBits shake p.bitsCwstrRng
        (csprngInitialize digest.toList (csprngDomainSepConst + UInt16.ofNat (3 * p.t)))
      ∃ (draws : Draws p.t) (start : Nat → Nat), start 0 = 0 ∧ (∀ c < p.t, DrawnAt p stream start (drawAt draws) c) ∧
        expandDigestToFixedWeight p shake digest = shuffled draws) ∧
      ∀ string : Mem, FixedWeight p string →
        Nat.card {draws : Draws p.t // shuffled draws = string} = p.w.factorial * (p.t - p.w).factorial := by
  constructor
  · intro digest stream
    obtain ⟨stop, start, numbers, zero, drawn, string, -⟩ := digestShuffling shake digest
    let draws : Draws p.t := fun c => ⟨numbers c, (drawn c c.isLt).low⟩
    have own : ∀ c < p.t, numbers c = drawAt draws c := fun c below => by
      unfold drawAt
      rw [dif_pos below]
    refine ⟨draws, start, zero, fun c below => ?_, string.trans (swappedCongr own)⟩
    obtain ⟨low, first⟩ := drawn c below
    rw [own c below] at low first
    exact ⟨low, first⟩
  · intro string fixed
    have weight : letters (fun i : Fin p.t => isOne (ones p) i) true = letters (fun i : Fin p.t => isOne string i) true := by
      rw [fixedWeightLetters fixed]
      exact fixedWeightLetters (initialFixedWeight p)
    have words : Nat.card {draws : Draws p.t // shuffled draws = string} =
        Nat.card {draws : Draws p.t //
          (fun i : Fin p.t => isOne (ones p) i) ∘ arrangement draws = fun i : Fin p.t => isOne string i} :=
      Nat.card_congr (Equiv.subtypeEquivRight fun draws => by rw [sameOnes (shuffledFixedWeight draws) fixed, shuffledWord])
    rw [words, Nat.card_eq_fintype_card, Shuffle.drawsOfCard weight, Shuffle.lettersFalse, weight, fixedWeightLetters fixed]

end Armor.Cross
