import Armor.Lib.Disclosure
import Armor.Lib.Authentication
import Mathlib.Algebra.BigOperators.Intervals
import Mathlib.Algebra.BigOperators.Ring.Finset
import Mathlib.Algebra.Order.BigOperators.Group.Finset

/-! Counting over a tree by potentials: a quantity charged to the pairs is bounded by any
potential that grows at least as fast towards the root. -/
namespace Armor.LinTree

open Finset

variable (t : LinTree)

theorem sizeOdd : t.size = 2 * (t.size / 2) + 1 := by
  have positive := t.nonempty
  by_contra even
  have := t.oddRightInside (n := t.size - 1) (by omega) (by omega)
  omega

theorem sumPairs (g : Nat → Int) (m : Nat) :
    ∑ j ∈ range m, (g (2 * j + 1) + g (2 * j + 1 + 1)) = ∑ n ∈ range (2 * m), g (n + 1) := by
  induction m with
  | zero => rfl
  | succ m ih =>
    rw [sum_range_succ, ih, show 2 * (m + 1) = 2 * m + 1 + 1 by ring, sum_range_succ, sum_range_succ]
    ring

theorem sumParents (g : Nat → Int) :
    ∑ j ∈ range (t.size / 2), g (t.parent (2 * j + 1)) =
      ∑ n ∈ (range t.size).filter (fun n => t.inner n = true), g n := by
  refine sum_nbij' (fun j => t.parent (2 * j + 1)) (fun n => t.left n / 2) ?_ ?_ ?_ ?_ (fun _ _ => rfl)
  · intro j below
    have inside : 2 * j + 1 < t.size := by have := mem_range.mp below; omega
    have up := t.parentInner (by omega) inside
    exact mem_filter.mpr ⟨mem_range.mpr up.1, up.2⟩
  · intro n member
    obtain ⟨inside, isInner⟩ := mem_filter.mp member
    have := t.leftBelow (mem_range.mp inside) isInner
    exact mem_range.mpr (by omega)
  · intro j below
    have inside : 2 * j + 1 < t.size := by have := mem_range.mp below; omega
    rw [t.oddIsLeft (by omega) inside]
    omega
  · intro n member
    obtain ⟨inside, isInner⟩ := mem_filter.mp member
    have odd := t.leftOdd (mem_range.mp inside) isInner
    rw [show 2 * (t.left n / 2) + 1 = t.left n by omega, t.parentLeft (mem_range.mp inside) isInner]

def leaves : Finset Nat := (range t.size).filter fun n => t.inner n = false

theorem memLeaves {n : Nat} : n ∈ t.leaves ↔ n < t.size ∧ t.inner n = false := by
  simp [leaves]

theorem sumTelescope (g : Nat → Int) :
    ∑ j ∈ range (t.size / 2), (g (t.parent (2 * j + 1)) - (g (2 * j + 1) + g (2 * j + 1 + 1))) =
      g 0 - ∑ n ∈ t.leaves, g n := by
  have all : ∑ n ∈ range t.size, g n = ∑ n ∈ range (2 * (t.size / 2)), g (n + 1) + g 0 := by
    conv_lhs => rw [t.sizeOdd]
    exact sum_range_succ' g _
  have split : ∑ n ∈ range t.size, g n =
      ∑ n ∈ (range t.size).filter (fun n => t.inner n = true), g n + ∑ n ∈ t.leaves, g n := by
    rw [leaves, ← sum_filter_add_sum_filter_not (range t.size) (fun n => t.inner n = true) g]
    simp
  rw [sum_sub_distrib, t.sumParents, sumPairs]
  omega

theorem potentialBound (cost potential : Nat → Int) (leaf : ∀ n ∈ t.leaves, 0 ≤ potential n)
    (node : ∀ n < t.size, t.inner n = true →
      potential (t.left n) + potential (t.left n + 1) + cost (t.left n) ≤ potential n) :
    ∑ j ∈ range (t.size / 2), cost (2 * j + 1) ≤ potential 0 := by
  have paid : ∑ j ∈ range (t.size / 2), cost (2 * j + 1) ≤ ∑ j ∈ range (t.size / 2),
      (potential (t.parent (2 * j + 1)) - (potential (2 * j + 1) + potential (2 * j + 1 + 1))) := by
    refine sum_le_sum fun j below => ?_
    have inside : 2 * j + 1 < t.size := by have := mem_range.mp below; omega
    obtain ⟨bound, isInner⟩ := t.parentInner (by omega) inside
    have here := node _ bound isInner
    rw [t.oddIsLeft (by omega) inside] at here
    omega
  have rest : 0 ≤ ∑ n ∈ t.leaves, potential n := sum_nonneg leaf
  rw [t.sumTelescope] at paid
  omega

def weight (w : Nat → Nat) : Nat → Nat := t.pairsDown.foldl (t.combineAt fun _ a b => a + b) w

theorem weightInner (w : Nat → Nat) {n : Nat} (inside : n < t.size) (isInner : t.inner n = true) :
    t.weight w n = t.weight w (t.left n) + t.weight w (t.left n + 1) :=
  t.foldSettled (fun _ a b => a + b) t.pairsDownBottomUp w n inside isInner

theorem weightLeaf (w : Nat → Nat) {n : Nat} (leaf : t.inner n = false) : t.weight w n = w n :=
  t.foldLeaf (fun _ a b => a + b) t.pairsDownBottomUp w n (.inl leaf)

theorem weightRoot (w : Nat → Nat) : t.weight w 0 = ∑ n ∈ t.leaves, w n := by
  have telescope := t.sumTelescope fun n => (t.weight w n : Int)
  rw [sum_eq_zero] at telescope
  · have same : ∑ n ∈ t.leaves, (t.weight w n : Int) = ∑ n ∈ t.leaves, (w n : Int) :=
      sum_congr rfl fun n member => by rw [t.weightLeaf w ((t.memLeaves).mp member).2]
    rw [same] at telescope
    rw [← Nat.cast_sum] at telescope
    omega
  · intro j below
    have inside : 2 * j + 1 < t.size := by have := mem_range.mp below; omega
    obtain ⟨bound, isInner⟩ := t.parentInner (by omega) inside
    have sum := t.weightInner w bound isInner
    rw [t.oddIsLeft (by omega) inside] at sum
    omega

theorem weightZero {w : Nat → Nat} {known : Nat → Bool} (settled : t.Known known)
    (none : ∀ n ∈ t.leaves, known n = false → w n = 0) :
    ∀ n < t.size, known n = false → t.weight w n = 0 := by
  refine t.upward (fun n inside leaf unknown => ?_) fun n inside isInner left right unknown => ?_
  · rw [t.weightLeaf w leaf]
    exact none n ((t.memLeaves).mpr ⟨inside, leaf⟩) unknown
  · have both := settled n inside isInner
    rw [unknown] at both
    have split := Bool.or_eq_false_iff.mp both.symm
    rw [t.weightInner w inside isInner, left split.1, right split.2]

def mixedCount (known : Nat → Bool) : Nat := (t.sent known).length

theorem mixedCountSum (known : Nat → Bool) :
    (t.mixedCount known : Int) =
      ∑ j ∈ range (t.size / 2), if mixed known (2 * j + 1) = true then 1 else 0 := by
  have upTo : ∀ m, ((((List.range m).map fun j => 2 * j + 1).filter (mixed known)).length : Int) =
      ∑ j ∈ range m, if mixed known (2 * j + 1) = true then 1 else 0 := by
    intro m
    induction m with
    | zero => rfl
    | succ m ih =>
      rw [List.range_succ, List.map_append, List.filter_append, List.length_append, sum_range_succ,
        ← ih, Nat.cast_add]
      congr 1
      simp only [List.map_cons, List.map_nil, List.filter_cons, List.filter_nil]
      split <;> rfl
  rw [mixedCount, sent, sentFrom, pairsFromZero, pairsDown, List.map_reverse, List.filter_reverse,
    List.length_reverse, upTo]

theorem topsCount {mark known : Nat → Bool} (marked : t.Marked mark)
    (opposite : ∀ n < t.size, known n = !mark n) : (t.tops mark).length = t.mixedCount known := by
  have upTo : ∀ m ≤ t.size / 2, ((t.topsBelow mark (2 * m)).length : Int) =
      ∑ j ∈ range m, if mixed known (2 * j + 1) = true then 1 else 0 := by
    intro m
    induction m with
    | zero => exact fun _ => rfl
    | succ m ih =>
      intro below
      have inside : 2 * m + 1 < t.size := by omega
      have odd : (2 * m + 1) % 2 = 1 := by omega
      have room := t.oddRightInside odd inside
      obtain ⟨bound, isInner⟩ := t.parentInner (by omega) inside
      have up := marked _ bound isInner
      rw [t.oddIsLeft odd inside] at up
      have left := opposite _ inside
      have right := opposite _ room
      rw [sum_range_succ, ← ih (by omega), show 2 * (m + 1) = 2 * m + 1 + 1 by ring,
        topsBelowSucc, topsBelowSucc, List.length_append, List.length_append]
      simp only [top, mixed, left, right, t.parentSibling odd inside, up]
      cases mark (2 * m + 1) <;> cases mark (2 * m + 1 + 1) <;> simp
  have size := t.sizeOdd
  have all := upTo _ (Nat.le_refl _)
  rw [← t.mixedCountSum, show 2 * (t.size / 2) = t.size - 1 by omega] at all
  rw [tops]
  exact_mod_cast all

theorem countPositive {n : Nat} (inside : n < t.size) :
    1 ≤ t.weight (fun _ => 1) n ∧ (t.inner n = true → 2 ≤ t.weight (fun _ => 1) n) := by
  refine t.upward (P := fun n => 1 ≤ t.weight (fun _ => 1) n ∧
    (t.inner n = true → 2 ≤ t.weight (fun _ => 1) n)) (fun n _ leaf => ?_) ?_ n inside
  · rw [t.weightLeaf _ leaf, leaf]
    simp
  · intro n inside isInner left right
    rw [t.weightInner _ inside isInner]
    omega

section Bounds

variable {known : Nat → Bool} (settled : t.Known known)

include settled in
theorem mixedHalf (paired : ∀ n < t.size, t.inner n = true → t.inner (t.left n) = t.inner (t.left n + 1)) :
    2 * t.mixedCount known ≤ t.leaves.card := by
  let count := t.weight fun _ => 1
  have atLeast : ∀ n < t.size, 1 ≤ count n ∧ (t.inner n = true → 2 ≤ count n) := fun _ => t.countPositive
  have bound := t.potentialBound (fun l => if mixed known l = true then 1 else 0)
    (fun n => if known n = true then ((count n / 2 : Nat) : Int) else 0) ?_ ?_
  · rw [← t.mixedCountSum] at bound
    have total : count 0 = t.leaves.card := by
      rw [card_eq_sum_ones]; exact t.weightRoot _
    split at bound <;> omega
  · intro n _
    split <;> omega
  · intro n inside isInner
    have room := t.leftBelow inside isInner
    have sum : count n = count (t.left n) + count (t.left n + 1) := t.weightInner _ inside isInner
    have both := settled n inside isInner
    have pair := paired n inside isInner
    have la := atLeast (t.left n) (by omega)
    have lb := atLeast (t.left n + 1) room
    have leafCount : ∀ m, t.inner m = false → count m = 1 := fun m leaf => t.weightLeaf _ leaf
    have one : (count (t.left n) = 1 ∧ count (t.left n + 1) = 1) ∨
        (2 ≤ count (t.left n) ∧ 2 ≤ count (t.left n + 1)) := by
      cases kind : t.inner (t.left n) with
      | false => exact .inl ⟨leafCount _ kind, leafCount _ (pair ▸ kind)⟩
      | true => exact .inr ⟨la.2 kind, lb.2 (pair ▸ kind)⟩
    simp only [mixed, both]
    rcases Bool.eq_false_or_eq_true (known (t.left n)) with hl | hl <;>
      rcases Bool.eq_false_or_eq_true (known (t.left n + 1)) with hr | hr <;> simp [hl, hr] <;> omega

include settled in
theorem mixedQuarter
    (balanced : ∀ n < t.size, t.inner n = true →
      t.weight (fun _ => 1) (t.left n) = t.weight (fun _ => 1) (t.left n + 1)) :
    t.mixedCount known ≤ (t.leaves.filter fun n => known n = true).card + t.leaves.card / 4 := by
  let count := t.weight fun _ => 1
  let seen := t.weight fun n => if known n = true then 1 else 0
  have unseen := t.weightZero settled (w := fun n => if known n = true then 1 else 0)
    (fun n _ unknown => by simp [unknown])
  have seenOne : ∀ n < t.size, known n = true → 1 ≤ seen n := by
    refine t.upward (fun n inside leaf h => ?_) fun n inside isInner left right h => ?_
    · simp [seen, t.weightLeaf _ leaf, h]
    · have sum' : seen n = seen (t.left n) + seen (t.left n + 1) := t.weightInner _ inside isInner
      rw [settled n inside isInner, Bool.or_eq_true] at h
      rcases h with h | h
      · have := left h; omega
      · have := right h; omega
  have bound := t.potentialBound (fun l => if mixed known l = true then 1 else 0)
    (fun n => if known n = true then
      (seen n : Int) + (if t.inner n = true then ((count n / 4 : Nat) : Int) else -1) else 0) ?_ ?_
  · rw [← t.mixedCountSum] at bound
    have total : count 0 = t.leaves.card := by
      rw [card_eq_sum_ones]; exact t.weightRoot _
    have total' : seen 0 = (t.leaves.filter fun n => known n = true).card := by
      simp only [seen, t.weightRoot, card_filter]
    split at bound
    · split at bound <;> omega
    · omega
  · intro n member
    split
    · rename_i hk
      have := seenOne n ((t.memLeaves).mp member).1 hk
      split <;> omega
    · omega
  · intro n inside isInner
    have room := t.leftBelow inside isInner
    have sum : count n = count (t.left n) + count (t.left n + 1) := t.weightInner _ inside isInner
    have sum' : seen n = seen (t.left n) + seen (t.left n + 1) := t.weightInner _ inside isInner
    have both := settled n inside isInner
    have equal : count (t.left n) = count (t.left n + 1) := balanced n inside isInner
    have leafCount : ∀ m, t.inner m = false → count m = 1 := fun m leaf => t.weightLeaf _ leaf
    have la := (t.countPositive (n := t.left n) (by omega)).2
    have lb := (t.countPositive room).2
    change _ → 2 ≤ count _ at la
    change _ → 2 ≤ count _ at lb
    have za := unseen (t.left n) (by omega)
    have zb := unseen (t.left n + 1) room
    have lLeaf := leafCount (t.left n)
    have rLeaf := leafCount (t.left n + 1)
    change known (t.left n) = false → seen (t.left n) = 0 at za
    change known (t.left n + 1) = false → seen (t.left n + 1) = 0 at zb
    simp only [mixed, both, isInner, if_true]
    rcases Bool.eq_false_or_eq_true (known (t.left n)) with hl | hl <;>
      rcases Bool.eq_false_or_eq_true (known (t.left n + 1)) with hr | hr <;>
      rcases Bool.eq_false_or_eq_true (t.inner (t.left n)) with il | il <;>
      rcases Bool.eq_false_or_eq_true (t.inner (t.left n + 1)) with ir | ir <;>
      simp [hl, hr, il, ir] at za zb la lb lLeaf rLeaf ⊢ <;> omega

end Bounds
end Armor.LinTree
