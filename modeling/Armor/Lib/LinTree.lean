import Mathlib.Algebra.BigOperators.Group.Finset.Basic
import Mathlib.Algebra.Order.BigOperators.Group.Finset
import Mathlib.Tactic.Linarith

/-! Full binary trees stored in one array: the root first, siblings adjacent, every
parent before its children. Nodes are array positions; a leaf may sit at any depth.
Node values settle bottom-up from a combining function and spread top-down from an
expanding one, in whatever order the nodes are visited. -/
namespace Armor

structure LinTree where
  size : Nat
  inner : Nat → Bool
  left : Nat → Nat
  parent : Nat → Nat
  nonempty : 0 < size
  leftAbove : ∀ {n}, n < size → inner n = true → n < left n
  leftBelow : ∀ {n}, n < size → inner n = true → left n + 1 < size
  leftOdd : ∀ {n}, n < size → inner n = true → left n % 2 = 1
  parentLeft : ∀ {n}, n < size → inner n = true → parent (left n) = n
  parentRight : ∀ {n}, n < size → inner n = true → parent (left n + 1) = n
  parentInner : ∀ {n}, 0 < n → n < size → parent n < size ∧ inner (parent n) = true
  childOf : ∀ {n}, 0 < n → n < size → n = left (parent n) ∨ n = left (parent n) + 1

namespace LinTree

variable (t : LinTree) {α : Type _}

theorem parentBelow {n : Nat} (positive : 0 < n) (inside : n < t.size) : t.parent n < n := by
  obtain ⟨bound, isInner⟩ := t.parentInner positive inside
  have above := t.leftAbove bound isInner
  rcases t.childOf positive inside with h | h <;> omega

theorem oddIsLeft {n : Nat} (odd : n % 2 = 1) (inside : n < t.size) : t.left (t.parent n) = n := by
  obtain ⟨bound, isInner⟩ := t.parentInner (by omega) inside
  have parity := t.leftOdd bound isInner
  rcases t.childOf (by omega) inside with h | h <;> omega

theorem evenIsRight {n : Nat} (even : n % 2 = 0) (positive : 0 < n) (inside : n < t.size) :
    t.left (t.parent n) + 1 = n := by
  obtain ⟨bound, isInner⟩ := t.parentInner positive inside
  have parity := t.leftOdd bound isInner
  rcases t.childOf positive inside with h | h <;> omega

theorem oddRightInside {n : Nat} (odd : n % 2 = 1) (inside : n < t.size) : n + 1 < t.size := by
  obtain ⟨bound, isInner⟩ := t.parentInner (by omega) inside
  have := t.leftBelow bound isInner
  rwa [t.oddIsLeft odd inside] at this

theorem parentSibling {n : Nat} (odd : n % 2 = 1) (inside : n < t.size) :
    t.parent (n + 1) = t.parent n := by
  obtain ⟨bound, isInner⟩ := t.parentInner (by omega) inside
  have := t.parentRight bound isInner
  rwa [t.oddIsLeft odd inside] at this

theorem leftInjective {a b : Nat} (ha : a < t.size) (hb : b < t.size) (ia : t.inner a = true)
    (ib : t.inner b = true) (same : t.left a = t.left b) : a = b := by
  rw [← t.parentLeft ha ia, same, t.parentLeft hb ib]

theorem leftApart {a b : Nat} (ha : a < t.size) (hb : b < t.size) (ia : t.inner a = true)
    (ib : t.inner b = true) : t.left a ≠ t.left b + 1 := by
  have pa := t.leftOdd ha ia
  have pb := t.leftOdd hb ib
  omega

theorem upward {P : Nat → Prop} (leaf : ∀ n < t.size, t.inner n = false → P n)
    (node : ∀ n < t.size, t.inner n = true → P (t.left n) → P (t.left n + 1) → P n) :
    ∀ n < t.size, P n := by
  have below : ∀ k n, t.size - n ≤ k → n < t.size → P n := by
    intro k
    induction k with
    | zero => intro n small inside; omega
    | succ k ih =>
      intro n small inside
      cases isInner : t.inner n with
      | false => exact leaf n inside isInner
      | true =>
        have above := t.leftAbove inside isInner
        have room := t.leftBelow inside isInner
        exact node n inside isInner (ih _ (by omega) (by omega)) (ih _ (by omega) room)
  exact fun n inside => below _ n (Nat.le_refl _) inside

theorem downward {P : Nat → Prop} (root : P 0)
    (child : ∀ n, 0 < n → n < t.size → P (t.parent n) → P n) : ∀ n < t.size, P n := by
  intro n
  induction n using Nat.strongRecOn with
  | ind n ih =>
    intro inside
    rcases Nat.eq_zero_or_pos n with rfl | positive
    · exact root
    · have below := t.parentBelow positive inside
      exact child n positive inside (ih _ below (by omega))

def Settled (comb : Nat → α → α → α) (v : Nat → α) : Prop :=
  ∀ n < t.size, t.inner n = true → v n = comb n (v (t.left n)) (v (t.left n + 1))

theorem settledUnique {comb : Nat → α → α → α} {v w : Nat → α} (hv : t.Settled comb v)
    (hw : t.Settled comb w) (leaves : ∀ n < t.size, t.inner n = false → v n = w n) :
    ∀ n < t.size, v n = w n :=
  t.upward leaves fun n inside isInner hl hr => by
    rw [hv n inside isInner, hw n inside isInner, hl, hr]

def combineAt (comb : Nat → α → α → α) (v : Nat → α) (l : Nat) : Nat → α :=
  Function.update v (t.parent l) (comb (t.parent l) (v l) (v (l + 1)))

structure BottomUp (ls : List Nat) : Prop where
  pairs : ∀ l ∈ ls, l % 2 = 1 ∧ l < t.size
  complete : ∀ l, l % 2 = 1 → l < t.size → l ∈ ls
  order : ls.Pairwise fun l l' => l ≠ l' ∧ t.parent l' ≠ l ∧ t.parent l' ≠ l + 1

theorem foldCombineOther (comb : Nat → α → α → α) (ls : List Nat) (v : Nat → α) (n : Nat)
    (other : ∀ l ∈ ls, t.parent l ≠ n) : ls.foldl (t.combineAt comb) v n = v n := by
  induction ls generalizing v with
  | nil => rfl
  | cons l ls ih =>
    rw [List.foldl_cons, ih _ fun x hx => other x (List.mem_cons_of_mem _ hx), combineAt,
      Function.update_of_ne (other l List.mem_cons_self).symm]

theorem foldCombineAt (comb : Nat → α → α → α) (ls : List Nat) (v : Nat → α)
    (pairs : ∀ l ∈ ls, l % 2 = 1 ∧ l < t.size)
    (order : ls.Pairwise fun l l' => l ≠ l' ∧ t.parent l' ≠ l ∧ t.parent l' ≠ l + 1) :
    ∀ l ∈ ls, ls.foldl (t.combineAt comb) v (t.parent l) =
      comb (t.parent l) (ls.foldl (t.combineAt comb) v l) (ls.foldl (t.combineAt comb) v (l + 1)) := by
  induction ls generalizing v with
  | nil => simp
  | cons a ls ih =>
    obtain ⟨first, rest⟩ := List.pairwise_cons.mp order
    have tail := fun l hl => pairs l (List.mem_cons_of_mem _ hl)
    intro l member
    rcases List.mem_cons.mp member with rfl | later
    · have own := pairs l List.mem_cons_self
      have below := t.parentBelow (by omega) own.2
      have others : ∀ x ∈ ls, t.parent x ≠ t.parent l := by
        intro x hx same
        have hl := t.oddIsLeft own.1 own.2
        have hx' := t.oddIsLeft (tail x hx).1 (tail x hx).2
        rw [same, hl] at hx'
        exact (first x hx).1 hx'
      rw [List.foldl_cons, t.foldCombineOther comb ls _ _ others,
        t.foldCombineOther comb ls _ l fun x hx => (first x hx).2.1,
        t.foldCombineOther comb ls _ (l + 1) fun x hx => (first x hx).2.2]
      simp only [combineAt, Function.update_self]
      rw [Function.update_of_ne (by omega), Function.update_of_ne (by omega)]
    · rw [List.foldl_cons]
      exact ih _ tail rest l later

theorem foldSettled (comb : Nat → α → α → α) {ls : List Nat} (order : t.BottomUp ls) (v : Nat → α) :
    t.Settled comb (ls.foldl (t.combineAt comb) v) := by
  intro n inside isInner
  have room := t.leftBelow inside isInner
  have member := order.complete (t.left n) (t.leftOdd inside isInner) (by omega)
  have here := t.foldCombineAt comb ls v order.pairs order.order _ member
  rwa [t.parentLeft inside isInner] at here

theorem foldLeaf (comb : Nat → α → α → α) {ls : List Nat} (order : t.BottomUp ls) (v : Nat → α)
    (n : Nat) (leaf : t.inner n = false ∨ t.size ≤ n) : ls.foldl (t.combineAt comb) v n = v n := by
  apply t.foldCombineOther
  intro l member same
  have pair := order.pairs l member
  have up := t.parentInner (by omega) pair.2
  rw [same] at up
  rcases leaf with leaf | outside
  · rw [up.2] at leaf; contradiction
  · omega

def pairsDown : List Nat := (List.range (t.size / 2)).reverse.map fun j => 2 * j + 1

theorem memPairsDown {l : Nat} : l ∈ t.pairsDown ↔ l % 2 = 1 ∧ l < t.size := by
  simp only [pairsDown, List.mem_map, List.mem_reverse, List.mem_range]
  constructor
  · rintro ⟨j, below, rfl⟩
    omega
  · rintro ⟨odd, inside⟩
    have := t.oddRightInside odd inside
    exact ⟨l / 2, by omega, by omega⟩

theorem pairsDownBottomUp : t.BottomUp t.pairsDown where
  pairs l member := (t.memPairsDown).mp member
  complete l odd inside := (t.memPairsDown).mpr ⟨odd, inside⟩
  order := by
    have sorted : t.pairsDown.Pairwise fun l l' => l' < l := by
      rw [pairsDown, List.pairwise_map, List.pairwise_reverse]
      exact (List.pairwise_lt_range).imp fun h => by omega
    refine sorted.imp_of_mem fun {l l'} hl hl' less => ?_
    have pair' := (t.memPairsDown).mp hl'
    have := t.parentBelow (by omega) pair'.2
    omega

inductive Anc : Nat → Nat → Prop where
  | refl (n : Nat) : Anc n n
  | up {a n : Nat} (positive : 0 < n) (inside : n < t.size) (above : Anc a (t.parent n)) : Anc a n

theorem ancLe {a n : Nat} (h : t.Anc a n) : a ≤ n := by
  induction h with
  | refl => exact Nat.le_refl _
  | up positive inside _ ih => have := t.parentBelow positive inside; omega

theorem ancTrans {a b c : Nat} (h : t.Anc a b) (h' : t.Anc b c) : t.Anc a c := by
  induction h' with
  | refl => exact h
  | up positive inside _ ih => exact .up positive inside ih

theorem ancRoot {n : Nat} (inside : n < t.size) : t.Anc 0 n :=
  t.downward (.refl 0) (fun _ positive inside ih => .up positive inside ih) n inside

theorem ancChild {a n : Nat} (h : t.Anc a n) (inside : n < t.size) (proper : a ≠ n) :
    t.inner a = true ∧ (t.Anc (t.left a) n ∨ t.Anc (t.left a + 1) n) := by
  induction h with
  | refl => exact absurd rfl proper
  | @up n positive bound above ih =>
    obtain ⟨inP, isInner⟩ := t.parentInner positive bound
    by_cases here : a = t.parent n
    · subst here
      refine ⟨isInner, ?_⟩
      rcases t.childOf positive bound with h | h
      · exact .inl (h ▸ .refl _)
      · exact .inr (h ▸ .refl _)
    · obtain ⟨hi, h | h⟩ := ih inP here
      · exact ⟨hi, .inl (.up positive bound h)⟩
      · exact ⟨hi, .inr (.up positive bound h)⟩

theorem ancLinear {a b n : Nat} (ha : t.Anc a n) (hb : t.Anc b n) : t.Anc a b ∨ t.Anc b a := by
  induction ha with
  | refl => exact .inr hb
  | @up n positive inside above ih =>
    cases hb with
    | refl => exact .inl (.up positive inside above)
    | up _ _ hb => exact ih hb

theorem ancLeaf {a n : Nat} (h : t.Anc a n) (inside : n < t.size) (leaf : t.inner a = false) :
    a = n := by
  by_contra proper
  have := (t.ancChild h inside proper).1
  rw [leaf] at this
  contradiction

def Full (lab : Nat → Bool) (n : Nat) : Prop :=
  ∀ m < t.size, t.inner m = false → t.Anc n m → lab m = true

theorem fullDown {lab : Nat → Bool} {a n : Nat} (h : t.Full lab a) (below : t.Anc a n) :
    t.Full lab n := fun m inside leaf under => h m inside leaf (t.ancTrans below under)

theorem fullLeaf {lab : Nat → Bool} {n : Nat} (inside : n < t.size) (leaf : t.inner n = false) :
    t.Full lab n ↔ lab n = true := by
  constructor
  · exact fun h => h n inside leaf (.refl n)
  · intro h m hm _ under
    rwa [← t.ancLeaf under hm leaf]

theorem fullInner {lab : Nat → Bool} {n : Nat} (inside : n < t.size) (isInner : t.inner n = true) :
    t.Full lab n ↔ t.Full lab (t.left n) ∧ t.Full lab (t.left n + 1) := by
  have room := t.leftBelow inside isInner
  have above := t.leftAbove inside isInner
  constructor
  · intro h
    refine ⟨t.fullDown h (.up (by omega) (by omega) ?_), t.fullDown h (.up (by omega) room ?_)⟩
    · rw [t.parentLeft inside isInner]; exact .refl n
    · rw [t.parentRight inside isInner]; exact .refl n
  · rintro ⟨hl, hr⟩ m hm leaf under
    have proper : n ≠ m := by rintro rfl; rw [isInner] at leaf; contradiction
    rcases (t.ancChild under hm proper).2 with h | h
    · exact hl m hm leaf h
    · exact hr m hm leaf h

theorem settledFull {lab : Nat → Bool} {v : Nat → Bool} (settled : t.Settled (fun _ a b => a && b) v)
    (leaves : ∀ n < t.size, t.inner n = false → v n = lab n) :
    ∀ n < t.size, (v n = true ↔ t.Full lab n) :=
  t.upward (fun n inside leaf => by rw [t.fullLeaf inside leaf, leaves n inside leaf])
    fun n inside isInner hl hr => by
      rw [settled n inside isInner, Bool.and_eq_true, hl, hr, t.fullInner inside isInner]

def MaxFull (lab : Nat → Bool) (n : Nat) : Prop :=
  0 < n ∧ n < t.size ∧ t.Full lab n ∧ ¬ t.Full lab (t.parent n)

theorem maxFullAbove {lab : Nat → Bool} (mixed : ¬ t.Full lab 0) :
    ∀ n < t.size, t.Full lab n → ∃ a, t.MaxFull lab a ∧ t.Anc a n := by
  refine t.downward (fun h => absurd h mixed) ?_
  intro n positive inside ih full
  by_cases up : t.Full lab (t.parent n)
  · obtain ⟨a, top, above⟩ := ih up
    exact ⟨a, top, .up positive inside above⟩
  · exact ⟨n, ⟨positive, inside, full, up⟩, .refl n⟩

theorem maxFullUnique {lab : Nat → Bool} {a b n : Nat} (ha : t.MaxFull lab a) (hb : t.MaxFull lab b)
    (an : t.Anc a n) (bn : t.Anc b n) : a = b := by
  have under : ∀ {x y}, t.MaxFull lab x → t.MaxFull lab y → t.Anc x y → x = y := by
    intro x y hx hy above
    cases above with
    | refl => rfl
    | up _ _ above => exact absurd (t.fullDown hx.2.2.1 above) hy.2.2.2
  rcases t.ancLinear an bn with h | h
  · exact under ha hb h
  · exact (under hb ha h).symm

end LinTree
end Armor
