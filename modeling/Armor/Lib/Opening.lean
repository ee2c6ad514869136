import Armor.Lib.Authentication
import Armor.Lib.Disclosure

/-! What the two readers of a tree accept, without their loops: an assignment of values to the nodes
that the stored values and the known or published nodes determine. Two assignments that meet at one
end of the tree agree at the other, or exhibit a node at which two inputs combine alike. -/
namespace Armor.LinTree

variable (t : LinTree) {α : Type _}

theorem sentNodup (known : Nat → Bool) : (t.sent known).Nodup := by
  have apart : (t.pairsFrom 0).Nodup := by
    rw [t.pairsFromZero]
    exact t.pairsDownBottomUp.order.imp fun here => here.1
  exact apart.filter _

theorem memSent {known : Nat → Bool} {l : Nat} :
    l ∈ t.sent known ↔ l % 2 = 1 ∧ l < t.size ∧ mixed known l = true := by
  rw [sent, sentFrom, List.mem_filter, memPairsFrom]
  constructor
  · rintro ⟨⟨odd, _, inside⟩, isMixed⟩
    exact ⟨odd, inside, isMixed⟩
  · rintro ⟨odd, inside, isMixed⟩
    exact ⟨⟨odd, by omega, inside⟩, isMixed⟩

def position (known : Nat → Bool) (l : Nat) : Nat := (t.sentFrom known (l / 2 + 1)).length

theorem sentPosition {known : Nat → Bool} {l : Nat} (odd : l % 2 = 1) (inside : l < t.size)
    (isMixed : mixed known l = true) : (t.sent known)[t.position known l]? = some l := by
  have index : 2 * (l / 2) + 1 = l := by omega
  have room := t.oddRightInside odd inside
  obtain ⟨rest, split⟩ := t.sentPrefix known (show l / 2 ≤ t.size / 2 by omega)
  rw [t.sentFromPred known (show l / 2 < t.size / 2 by omega), index, if_pos isMixed, List.append_assoc,
    List.singleton_append] at split
  rw [split, position, List.getElem?_append_right (Nat.le_refl _), Nat.sub_self, List.getElem?_cons_zero]

theorem positionSent {known : Nat → Bool} {i : Nat} (below : i < (t.sent known).length) :
    t.position known (t.sent known)[i] = i := by
  obtain ⟨odd, inside, isMixed⟩ := (t.memSent).mp (List.getElem_mem below)
  have here := t.sentPosition odd inside isMixed
  obtain ⟨bound, same⟩ := List.getElem?_eq_some_iff.mp here
  exact ((t.sentNodup known).getElem_inj_iff).mp same

section Authentic

variable (comb : Nat → α → α → α)

structure Authentic (known : Nat → Bool) (leaf stored tree : Nat → α) : Prop where
  leaves : ∀ n < t.size, t.inner n = false → known n = true → tree n = leaf n
  nodes : ∀ n < t.size, t.inner n = true → known n = true → tree n = comb n (tree (t.left n)) (tree (t.left n + 1))
  sent : ∀ i, (below : i < (t.sent known).length) → tree (missing known (t.sent known)[i]) = stored i

variable {comb} {known : Nat → Bool} {leaf leaf' stored stored' tree tree' : Nat → α}

theorem missingSibling (settled : t.Known known) {n : Nat} (inside : n < t.size) (isInner : t.inner n = true)
    (own : known n = true) : ∀ child, child = t.left n ∨ child = t.left n + 1 → known child = false →
      ∃ i, ∃ below : i < (t.sent known).length, child = missing known (t.sent known)[i] := by
  intro child side hidden
  have some_ : (known (t.left n) || known (t.left n + 1)) = true := by
    rw [← own]
    exact (settled n inside isInner).symm
  have room := t.leftBelow inside isInner
  have isMixed : mixed known (t.left n) = true ∧ child = missing known (t.left n) := by
    unfold mixed missing
    rcases side with rfl | rfl
    · rw [hidden, Bool.false_or] at some_
      rw [hidden, some_]
      exact ⟨rfl, rfl⟩
    · rw [hidden, Bool.or_false] at some_
      rw [hidden, some_]
      exact ⟨rfl, rfl⟩
  obtain ⟨i, below, same⟩ := List.mem_iff_getElem.mp ((t.memSent).mpr
    ⟨t.leftOdd inside isInner, by omega, isMixed.1⟩)
  exact ⟨i, below, by rw [same]; exact isMixed.2⟩

theorem authenticUnique (settled : t.Known known) (here : t.Authentic comb known leaf stored tree)
    (there : t.Authentic comb known leaf stored tree') : ∀ n < t.size, known n = true → tree n = tree' n := by
  refine t.upward (fun n inside isLeaf own => ?_) fun n inside isInner left right own => ?_
  · rw [here.leaves n inside isLeaf own, there.leaves n inside isLeaf own]
  · have child : ∀ c, c = t.left n ∨ c = t.left n + 1 → (known c = true → tree c = tree' c) → tree c = tree' c := by
      intro c side known'
      cases flag : known c with
      | true => exact known' flag
      | false =>
        obtain ⟨i, below, same⟩ := t.missingSibling settled inside isInner own c side flag
        rw [same, here.sent i below, there.sent i below]
    rw [here.nodes n inside isInner own, there.nodes n inside isInner own, child _ (.inl rfl) left,
      child _ (.inr rfl) right]

theorem authenticBinding (settled : t.Known known)
    (here : t.Authentic comb known leaf stored tree) (there : t.Authentic comb known leaf' stored' tree')
    (same : tree 0 = tree' 0)
    (apart : ∀ n < t.size, t.inner n = true → known n = true →
      comb n (tree (t.left n)) (tree (t.left n + 1)) = comb n (tree' (t.left n)) (tree' (t.left n + 1)) →
        tree (t.left n) = tree' (t.left n) ∧ tree (t.left n + 1) = tree' (t.left n + 1)) :
    (∀ n < t.size, t.inner n = false → known n = true → leaf n = leaf' n) ∧
      ∀ i < (t.sent known).length, stored i = stored' i := by
  have parent : ∀ n, 0 < n → n < t.size → known n = true → known (t.parent n) = true := by
    intro n positive inside own
    obtain ⟨bound, isInner⟩ := t.parentInner positive inside
    rw [settled _ bound isInner]
    rcases t.childOf positive inside with side | side <;> rw [← side, own]
    · rfl
    · exact Bool.or_true _
  have below : ∀ n, 0 < n → n < t.size → known (t.parent n) = true → tree (t.parent n) = tree' (t.parent n) →
      tree n = tree' n := by
    intro n positive inside up agree
    obtain ⟨bound, isInner⟩ := t.parentInner positive inside
    rw [here.nodes _ bound isInner up, there.nodes _ bound isInner up] at agree
    have children := apart _ bound isInner up agree
    rcases t.childOf positive inside with side | side
    · rw [side]
      exact children.1
    · rw [side]
      exact children.2
  have all : ∀ n < t.size, known n = true → tree n = tree' n :=
    t.downward (fun _ => same) fun n positive inside ih own =>
      below n positive inside (parent n positive inside own) (ih (parent n positive inside own))
  refine ⟨fun n inside isLeaf own => ?_, fun i bound => ?_⟩
  · rw [← here.leaves n inside isLeaf own, ← there.leaves n inside isLeaf own]
    exact all n inside own
  · obtain ⟨odd, inside, isMixed⟩ := (t.memSent).mp (List.getElem_mem bound)
    have room := t.oddRightInside odd inside
    rw [← here.sent i bound, ← there.sent i bound]
    generalize (t.sent known)[i] = l at odd inside isMixed room
    have up : known (t.parent l) = true := by
      rw [t.knownParent settled odd inside]
      unfold mixed at isMixed
      cases left : known l <;> cases right : known (l + 1) <;> rw [left, right] at isMixed <;> first | rfl | cases isMixed
    have agree := all _ (t.parentInner (by omega) inside).1 up
    unfold missing
    split
    · refine below (l + 1) (Nat.succ_pos l) room ?_ ?_ <;> rw [t.parentSibling odd inside] <;> assumption
    · exact below l (by omega) inside up agree

variable (comb stored) {init : Recomputing α}

def halfValue (known : Nat → Bool) (value : Nat → α) (l n : Nat) : α :=
  if known n = true then value n else stored (t.position known l)

def Combined (known : Nat → Bool) (init : Nat → α) (j : Nat) (value : Nat → α) : Prop :=
  (∀ n < t.size, t.inner n = false → value n = init n) ∧
  ∀ n < t.size, t.inner n = true → known n = true → 2 * j < t.left n →
    value n = comb n (t.halfValue stored known value (t.left n) (t.left n))
      (t.halfValue stored known value (t.left n) (t.left n + 1))

theorem combinedStep (settled : t.Known known) {j : Nat} {s : Recomputing α} (below : j < t.size / 2)
    (inv : t.Recomputed comb stored known init (j + 1) s)
    (combined : t.Combined comb stored known init.value (j + 1) s.value) :
    t.Combined comb stored known init.value j (t.recomputeAt comb stored (2 * j + 1) s).value := by
  have inside : 2 * j + 1 < t.size := by omega
  have odd : (2 * j + 1) % 2 = 1 := by omega
  obtain ⟨left, right⟩ := t.flaggedPair inside inv.flags
  obtain ⟨bound, isInner⟩ := t.parentInner (show 0 < 2 * j + 1 by omega) inside
  have back := t.oddIsLeft odd inside
  have parent := t.knownParent settled odd inside
  have before := t.parentBelow (show 0 < 2 * j + 1 by omega) inside
  have taken : t.position known (2 * j + 1) = s.used := by
    rw [position, show (2 * j + 1) / 2 + 1 = j + 1 by omega, inv.used]
  by_cases needed : (s.flags (2 * j + 1) || s.flags (2 * j + 1 + 1)) = true
  · have value : (t.recomputeAt comb stored (2 * j + 1) s).value = Function.update s.value (t.parent (2 * j + 1))
        (comb (t.parent (2 * j + 1)) (t.halfValue stored known s.value (2 * j + 1) (2 * j + 1))
          (t.halfValue stored known s.value (2 * j + 1) (2 * j + 1 + 1))) := by
      rw [recomputeAt, if_pos needed]
      simp only [hashInto, takeHalfFirst, takeHalfValue, takeHalfFlags, takeHalfUsed, halfValue, left, right, taken]
      congr 2
      rw [left, right] at needed
      cases hl : known (2 * j + 1)
      · rw [hl, Bool.false_or] at needed
        simp only [needed, if_true]
      · rfl
    -- the father of the pair lies before it, and before every pair read earlier
    have halves : ∀ l n, t.parent (2 * j + 1) < n → t.halfValue stored known (Function.update s.value
        (t.parent (2 * j + 1)) (comb (t.parent (2 * j + 1)) (t.halfValue stored known s.value (2 * j + 1) (2 * j + 1))
          (t.halfValue stored known s.value (2 * j + 1) (2 * j + 1 + 1)))) l n = t.halfValue stored known s.value l n := by
      intro l n above
      unfold halfValue
      rw [Function.update_of_ne (by omega)]
    rw [value]
    refine ⟨fun n small isLeaf => ?_, fun n small inner own far => ?_⟩
    · have other : n ≠ t.parent (2 * j + 1) := by
        rintro rfl
        rw [isInner] at isLeaf
        contradiction
      rw [Function.update_of_ne other]
      exact combined.1 n small isLeaf
    · have deep := t.leftAbove small inner
      rw [halves _ _ (by omega), halves _ _ (by omega)]
      by_cases here : n = t.parent (2 * j + 1)
      · rw [here, Function.update_self, back]
      · rw [Function.update_of_ne here]
        refine combined.2 n small inner own ?_
        have differ : t.left n ≠ 2 * j + 1 := fun same => here (by rw [← same, t.parentLeft small inner])
        have parity := t.leftOdd small inner
        omega
  · have still : t.recomputeAt comb stored (2 * j + 1) s = s := by rw [recomputeAt, if_neg needed]
    rw [still]
    refine ⟨combined.1, fun n small inner own far => combined.2 n small inner own ?_⟩
    have differ : t.left n ≠ 2 * j + 1 := by
      intro same
      have up : t.parent (2 * j + 1) = n := by rw [← same, t.parentLeft small inner]
      rw [up] at parent
      rw [left, right, ← parent, own] at needed
      exact needed rfl
    have parity := t.leftOdd small inner
    omega

theorem recomputeAuthentic (init : Recomputing α) (settled : t.Known known)
    (leaves : ∀ n < t.size, t.inner n = false → init.flags n = known n)
    (blank : ∀ n < t.size, t.inner n = true → init.flags n = false) (fresh : init.used = 0 ∧ init.calls = []) :
    ∃ tree, t.Authentic comb known init.value stored tree ∧
      ∀ n, known n = true → (t.recompute comb stored init).value n = tree n := by
  have run : t.Recomputed comb stored known init 0 (t.recompute comb stored init) ∧
      t.Combined comb stored known init.value 0 (t.recompute comb stored init).value := by
    apply Loop.downFromInvariant (fun j s => t.Recomputed comb stored known init j s ∧
      t.Combined comb stored known init.value j s.value)
    · refine ⟨t.recomputedStart comb stored leaves fresh, fun n _ _ => rfl, fun n inside isInner _ far => ?_⟩
      have := t.leftBelow inside isInner
      omega
    · exact fun j below s inv => ⟨t.recomputedStep comb stored settled blank (by omega) inv.1,
        t.combinedStep comb stored settled below inv.1 inv.2⟩
  -- the left node of the pair a node belongs to
  let pair : Nat → Nat := fun n => if n % 2 = 1 then n else n - 1
  refine ⟨fun n => t.halfValue stored known (t.recompute comb stored init).value (pair n) n,
    ⟨fun n inside isLeaf own => ?_, fun n inside isInner own => ?_, fun i below => ?_⟩, fun n own => ?_⟩
  · rw [halfValue, if_pos own]
    exact run.2.1 n inside isLeaf
  · have odd := t.leftOdd inside isInner
    have first : pair (t.left n) = t.left n := if_pos odd
    have second : pair (t.left n + 1) = t.left n := if_neg (by omega)
    rw [first, second, halfValue, if_pos own]
    exact run.2.2 n inside isInner own (by omega)
  · obtain ⟨odd, inside, isMixed⟩ := (t.memSent).mp (List.getElem_mem below)
    have here := t.positionSent below
    generalize (t.sent known)[i] = l at odd inside isMixed here
    have hidden : known (missing known l) = false := by
      unfold mixed at isMixed
      unfold missing
      cases left : known l <;> cases right : known (l + 1) <;> rw [left, right] at isMixed <;> simp_all
    have own : pair (missing known l) = l := by
      unfold missing
      split
      · exact if_neg (by omega)
      · exact if_pos odd
    rw [own, halfValue, if_neg (by rw [hidden]; exact Bool.false_ne_true), here]
  · exact (if_pos own).symm

end Authentic

section Disclosed

variable (expand : Nat → α → α × α)

structure Disclosed (mark : Nat → Bool) (stored tree : Nat → α) : Prop where
  tops : ∀ i, (below : i < (t.tops mark).length) → tree (t.tops mark)[i] = stored i
  grown : ∀ n, 0 < n → n < t.size → mark n = true → t.inner n = true →
    tree (t.left n) = (expand n (tree n)).1 ∧ tree (t.left n + 1) = (expand n (tree n)).2

variable {expand} {mark : Nat → Bool} {stored stored' tree tree' : Nat → α}

theorem restoredDisclosed {init : Slots α} {s : Restoring α}
    (inv : t.Restored expand mark stored init (t.size - 1) (t.size - 1) s) : t.Disclosed expand mark stored s.nodes.cell where
  tops i below := inv.loaded i below
  grown n positive inside own isInner := inv.grown n positive (by omega) own isInner

theorem disclosedUnique (hidden : mark 0 = false) (here : t.Disclosed expand mark stored tree)
    (there : t.Disclosed expand mark stored tree') : ∀ n < t.size, mark n = true → tree n = tree' n := by
  refine t.downward (fun own => by rw [hidden] at own; contradiction) fun n positive inside ih own => ?_
  rcases t.topOrBelow own with isTop | up
  · obtain ⟨i, below, same⟩ := List.mem_iff_getElem.mp ((t.memTops).mpr ⟨positive, inside, isTop⟩)
    rw [← same, here.tops i below, there.tops i below]
  · obtain ⟨inP, isInner⟩ := t.parentInner positive inside
    have above : 0 < t.parent n := Nat.pos_of_ne_zero fun zero => by
      rw [zero, hidden] at up
      contradiction
    have one := here.grown _ above inP up isInner
    have other := there.grown _ above inP up isInner
    rw [ih up] at one
    rcases t.childOf positive inside with side | side
    · rw [side, one.1, other.1]
    · rw [side, one.2, other.2]

theorem disclosedBinding (marked : t.Marked mark) (hidden : mark 0 = false) (here : t.Disclosed expand mark stored tree)
    (there : t.Disclosed expand mark stored' tree')
    (leaves : ∀ n < t.size, t.inner n = false → mark n = true → tree n = tree' n)
    (apart : ∀ n < t.size, t.inner n = true → mark n = true → expand n (tree n) = expand n (tree' n) → tree n = tree' n) :
    ∀ i < (t.tops mark).length, stored i = stored' i := by
  have all : ∀ n < t.size, mark n = true → tree n = tree' n := by
    refine t.upward leaves fun n inside isInner left right own => apart n inside isInner own ?_
    have above := t.leftAbove inside isInner
    have room := t.leftBelow inside isInner
    have positive : 0 < n := Nat.pos_of_ne_zero fun zero => by
      rw [zero, hidden] at own
      contradiction
    have one := here.grown n positive inside own isInner
    have other := there.grown n positive inside own isInner
    have markLeft := t.markedChild marked (n := t.left n) (by omega) (by omega) (by rwa [t.parentLeft inside isInner])
    have markRight := t.markedChild marked (n := t.left n + 1) (by omega) room (by rwa [t.parentRight inside isInner])
    exact Prod.ext (one.1.symm.trans ((left markLeft).trans other.1)) (one.2.symm.trans ((right markRight).trans other.2))
  intro i below
  obtain ⟨positive, inside, isTop⟩ := (t.memTops).mp (List.getElem_mem below)
  have own : mark (t.tops mark)[i] = true := by
    rw [top, Bool.and_eq_true] at isTop
    exact isTop.1
  rw [← here.tops i below, ← there.tops i below]
  exact all _ inside own

end Disclosed
end Armor.LinTree
