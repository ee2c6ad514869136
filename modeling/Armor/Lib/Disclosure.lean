import Armor.Lib.LinTree
import Armor.Lib.Loop
import Armor.Lib.Memory

/-! Disclosing part of a tree whose children are expanded from their parent: the roots of
the maximal marked subtrees are stored in array order, and a reader that holds only those
restores exactly the marked nodes. -/
namespace Armor.LinTree

variable (t : LinTree) {α : Type _}

abbrev Marked (mark : Nat → Bool) : Prop := t.Settled (fun _ a b => a && b) mark

theorem markedChild {mark : Nat → Bool} (marked : t.Marked mark) {n : Nat} (positive : 0 < n)
    (inside : n < t.size) (up : mark (t.parent n) = true) : mark n = true := by
  obtain ⟨bound, isInner⟩ := t.parentInner positive inside
  have both := marked _ bound isInner
  rw [up] at both
  have split := (Bool.and_eq_true _ _).mp both.symm
  rcases t.childOf positive inside with h | h
  · rw [h]; exact split.1
  · rw [h]; exact split.2

def top (mark : Nat → Bool) (n : Nat) : Bool := mark n && !mark (t.parent n)

def topsBelow (mark : Nat → Bool) (k : Nat) : List Nat :=
  ((List.range k).map (· + 1)).filter (t.top mark)

def tops (mark : Nat → Bool) : List Nat := t.topsBelow mark (t.size - 1)

theorem memTopsBelow {mark : Nat → Bool} {k n : Nat} :
    n ∈ t.topsBelow mark k ↔ 0 < n ∧ n ≤ k ∧ t.top mark n = true := by
  simp only [topsBelow, List.mem_filter, List.mem_map, List.mem_range]
  constructor
  · rintro ⟨⟨j, below, rfl⟩, isTop⟩
    exact ⟨by omega, by omega, isTop⟩
  · rintro ⟨positive, below, isTop⟩
    exact ⟨⟨n - 1, by omega, by omega⟩, isTop⟩

theorem topsBelowSucc (mark : Nat → Bool) (k : Nat) :
    t.topsBelow mark (k + 1) =
      t.topsBelow mark k ++ if t.top mark (k + 1) = true then [k + 1] else [] := by
  simp only [topsBelow, List.range_succ, List.map_append, List.filter_append, List.map_cons,
    List.map_nil, List.filter_cons, List.filter_nil]

theorem memTops {mark : Nat → Bool} {n : Nat} :
    n ∈ t.tops mark ↔ 0 < n ∧ n < t.size ∧ t.top mark n = true := by
  rw [tops, memTopsBelow]
  constructor
  · rintro ⟨positive, below, isTop⟩
    exact ⟨positive, by omega, isTop⟩
  · rintro ⟨positive, inside, isTop⟩
    exact ⟨positive, by omega, isTop⟩

theorem topOrBelow {mark : Nat → Bool} {n : Nat} (marked : mark n = true) :
    t.top mark n = true ∨ mark (t.parent n) = true := by
  cases up : mark (t.parent n) <;> simp [top, marked, up]

section Spread

variable (expand : Nat → α → α × α)

def expandAt (n : Nat) (s : Slots α) : Slots α :=
  let pair := expand n (s.cell n)
  (s.put (t.left n) pair.1).put (t.left n + 1) pair.2

theorem expandAtOther (n : Nat) (s : Slots α) {m : Nat} (left : m ≠ t.left n)
    (right : m ≠ t.left n + 1) : (t.expandAt expand n s).cell m = s.cell m := by
  rw [expandAt, Slots.putCellOther _ _ right, Slots.putCellOther _ _ left]

@[simp] theorem expandAtLeft (n : Nat) (s : Slots α) :
    (t.expandAt expand n s).cell (t.left n) = (expand n (s.cell n)).1 := by
  rw [expandAt, Slots.putCellOther _ _ (by omega), Slots.putCellSame]

@[simp] theorem expandAtRight (n : Nat) (s : Slots α) :
    (t.expandAt expand n s).cell (t.left n + 1) = (expand n (s.cell n)).2 := by
  rw [expandAt, Slots.putCellSame]

@[simp] theorem expandAtLog (n : Nat) (s : Slots α) :
    (t.expandAt expand n s).log = (t.left n + 1) :: t.left n :: s.log := rfl

structure Spread (init : Slots α) (k : Nat) (s : Slots α) : Prop where
  root : s.cell 0 = init.cell 0
  grown : ∀ p < k, t.inner p = true →
    s.cell (t.left p) = (expand p (s.cell p)).1 ∧ s.cell (t.left p + 1) = (expand p (s.cell p)).2
  written : ∃ fresh, s.log = fresh ++ init.log ∧ fresh.Nodup ∧
    ∀ n, n ∈ fresh ↔ 0 < n ∧ n < t.size ∧ t.parent n < k
  outside : ∀ n, t.size ≤ n → s.cell n = init.cell n

def spreadAt (n : Nat) (s : Slots α) : Slots α :=
  if t.inner n = true then t.expandAt expand n s else s

theorem spreadStep {init s : Slots α} {k : Nat} (inside : k < t.size)
    (inv : t.Spread expand init k s) : t.Spread expand init (k + 1) (t.spreadAt expand k s) := by
  obtain ⟨root, grown, ⟨fresh, log, nodup, members⟩, outside⟩ := inv
  cases isInner : t.inner k with
  | false =>
    simp only [spreadAt, isInner, Bool.false_eq_true, if_false]
    refine ⟨root, fun p below inner => ?_, ⟨fresh, log, nodup, fun n => ?_⟩, outside⟩
    · rcases Nat.lt_succ_iff_lt_or_eq.mp below with lower | rfl
      · exact grown p lower inner
      · rw [isInner] at inner; contradiction
    · rw [members]
      constructor
      · rintro ⟨positive, bound, below⟩
        exact ⟨positive, bound, by omega⟩
      · rintro ⟨positive, bound, below⟩
        refine ⟨positive, bound, Nat.lt_of_le_of_ne (by omega) fun same => ?_⟩
        have up := (t.parentInner positive bound).2
        rw [same, isInner] at up
        contradiction
  | true =>
    have above := t.leftAbove inside isInner
    have room := t.leftBelow inside isInner
    simp only [spreadAt, isInner, if_true]
    refine ⟨?_, fun p below inner => ?_, ⟨(t.left k + 1) :: t.left k :: fresh, ?_, ?_, fun n => ?_⟩,
      fun n far => ?_⟩
    · rw [t.expandAtOther expand k s (by omega) (by omega), root]
    · have pAbove := t.leftAbove (show p < t.size by omega) inner
      rw [t.expandAtOther expand k s (m := p) (by omega) (by omega)]
      rcases Nat.lt_succ_iff_lt_or_eq.mp below with lower | rfl
      · have far := t.leftApart (show p < t.size by omega) inside inner isInner
        have far' := t.leftApart inside (show p < t.size by omega) isInner inner
        have differ : t.left p ≠ t.left k := fun same =>
          Nat.ne_of_lt lower (t.leftInjective (by omega) inside inner isInner same)
        rw [t.expandAtOther expand k s differ far,
          t.expandAtOther expand k s (fun h => far' h.symm) (by omega)]
        exact grown p lower inner
      · exact ⟨t.expandAtLeft expand p s, t.expandAtRight expand p s⟩
    · rw [expandAtLog, log]; rfl
    · have left : t.left k ∉ fresh := fun member => by
        have := (members _).mp member
        rw [t.parentLeft inside isInner] at this
        omega
      have right : t.left k + 1 ∉ fresh := fun member => by
        have := (members _).mp member
        rw [t.parentRight inside isInner] at this
        omega
      simp [nodup, left, right]
    · simp only [List.mem_cons, members]
      constructor
      · rintro (rfl | rfl | ⟨positive, bound, below⟩)
        · exact ⟨by omega, room, by rw [t.parentRight inside isInner]; omega⟩
        · exact ⟨by omega, by omega, by rw [t.parentLeft inside isInner]; omega⟩
        · exact ⟨positive, bound, by omega⟩
      · rintro ⟨positive, bound, below⟩
        rcases Nat.lt_succ_iff_lt_or_eq.mp below with lower | same
        · exact .inr (.inr ⟨positive, bound, lower⟩)
        · rcases t.childOf positive bound with h | h
          · exact .inr (.inl (same ▸ h))
          · exact .inl (same ▸ h)
    · rw [t.expandAtOther expand k s (by omega) (by omega), outside n far]

theorem spreadRun (init : Slots α) :
    t.Spread expand init t.size (Loop.upTo t.size (t.spreadAt expand) init) := by
  apply Loop.upToInvariant (fun k s => t.Spread expand init k s)
  · exact ⟨rfl, fun p h => by omega, ⟨[], rfl, List.nodup_nil, by simp⟩, fun _ _ => rfl⟩
  · exact fun k below s inv => t.spreadStep expand below inv

end Spread

theorem publishRun {len : Nat} (mark : Nat → Bool) (value : Nat → Block len) (k : Nat)
    (s : (Mem × Nat) × List Nat) :
    Loop.upTo k (fun i s =>
      if t.top mark (i + 1) = true then (Mem.append (value (i + 1)) s.1, s.2 ++ [i + 1]) else s) s =
      (Mem.appendAll ((t.topsBelow mark k).map value) s.1, s.2 ++ t.topsBelow mark k) := by
  induction k with
  | zero => simp [topsBelow, Mem.appendAll]
  | succ k ih =>
    rw [Loop.upToSucc, ih, topsBelowSucc, List.map_append]
    simp only [Mem.appendAll, List.foldl_append]
    cases t.top mark (k + 1)
    · simp
    · simp

structure Restoring (α : Type _) where
  nodes : Slots α
  used : Nat
  loads : List Nat

section Restore

variable (expand : Nat → α → α × α) (mark : Nat → Bool) (stored : Nat → α)

def loadAt (n : Nat) (s : Restoring α) : Restoring α :=
  if t.top mark n = true then
    { nodes := s.nodes.put n (stored s.used), used := s.used + 1, loads := n :: s.loads }
  else s

def growAt (n : Nat) (s : Restoring α) : Restoring α :=
  if mark n = true ∧ t.inner n = true then { s with nodes := t.expandAt expand n s.nodes } else s

def restoreAt (n : Nat) (s : Restoring α) : Restoring α :=
  t.growAt expand mark n (t.loadAt mark stored n s)

def restore (init : Slots α) : Restoring α :=
  Loop.upTo (t.size - 1) (fun i => t.restoreAt expand mark stored (i + 1)) ⟨init, 0, []⟩

structure Restored (init : Slots α) (k j : Nat) (s : Restoring α) : Prop where
  loads : s.loads.reverse = t.topsBelow mark k
  used : s.used = (t.topsBelow mark k).length
  loaded : ∀ i, (h : i < (t.topsBelow mark k).length) →
    s.nodes.cell (t.topsBelow mark k)[i] = stored i
  grown : ∀ p, 0 < p → p ≤ j → mark p = true → t.inner p = true →
    s.nodes.cell (t.left p) = (expand p (s.nodes.cell p)).1 ∧
    s.nodes.cell (t.left p + 1) = (expand p (s.nodes.cell p)).2
  written : ∃ fresh, s.nodes.log = fresh ++ init.log ∧ fresh.Nodup ∧
    ∀ n, n ∈ fresh ↔ 0 < n ∧ n < t.size ∧ mark n = true ∧
      if mark (t.parent n) = true then 0 < t.parent n ∧ t.parent n ≤ j else n ≤ k
  kept : ∀ n, n ∉ s.nodes.log → s.nodes.cell n = init.cell n

variable {mark} (marked : t.Marked mark)

theorem restoredStart (init : Slots α) : t.Restored expand mark stored init 0 0 ⟨init, 0, []⟩ where
  loads := rfl
  used := rfl
  loaded i h := absurd h (Nat.not_lt_zero i)
  grown p positive below := by omega
  written := ⟨[], rfl, List.nodup_nil, fun n => by
    simp only [List.not_mem_nil, false_iff]
    rintro ⟨positive, _, _, h⟩
    split at h <;> omega⟩
  kept n _ := rfl

theorem loadStep {init : Slots α} {k j : Nat} {s : Restoring α} (order : j ≤ k)
    (inside : k + 1 < t.size) (inv : t.Restored expand mark stored init k j s) :
    t.Restored expand mark stored init (k + 1) j (t.loadAt mark stored (k + 1) s) := by
  obtain ⟨loads, used, loaded, grown, ⟨fresh, log, nodup, members⟩, kept⟩ := inv
  have list := t.topsBelowSucc mark k
  cases isTop : t.top mark (k + 1) with
  | false =>
    simp only [isTop, Bool.false_eq_true, if_false, List.append_nil] at list
    simp only [loadAt, isTop, Bool.false_eq_true, if_false]
    refine ⟨by rw [list, loads], by rw [list, used], by simpa only [list] using loaded, grown,
      ⟨fresh, log, nodup, fun n => ?_⟩, kept⟩
    rw [members]
    refine and_congr_right fun _ => and_congr_right fun _ => and_congr_right fun hm => ?_
    split
    · exact Iff.rfl
    · rename_i noUp
      have differ : n ≠ k + 1 := by
        rintro rfl
        simp [top, hm, noUp] at isTop
      omega
  | true =>
    simp only [isTop, if_true] at list
    simp only [loadAt, isTop, if_true]
    obtain ⟨own, noUp⟩ : mark (k + 1) = true ∧ mark (t.parent (k + 1)) = false := by
      simpa [top] using isTop
    have apart : ∀ p, mark p = true → p < t.size → t.inner p = true →
        t.left p ≠ k + 1 ∧ t.left p + 1 ≠ k + 1 := by
      intro p hp bound isInner
      constructor
      · intro same
        rw [← same, t.parentLeft bound isInner, hp] at noUp
        contradiction
      · intro same
        rw [← same, t.parentRight bound isInner, hp] at noUp
        contradiction
    refine ⟨by rw [list, List.reverse_cons, loads], by rw [list, List.length_append, used]; rfl,
      fun i below => ?_, fun p positive below hp isInner => ?_,
      ⟨(k + 1) :: fresh, by simp [log], ?_, fun n => ?_⟩, fun n fresh => ?_⟩
    · simp only [list, List.length_append, List.length_singleton] at below
      simp only [list]
      rcases Nat.lt_succ_iff_lt_or_eq.mp below with lower | same
      · rw [List.getElem_append_left lower, Slots.putCellOther]
        · exact loaded i lower
        · have member := List.getElem_mem lower
          rw [t.memTopsBelow] at member
          omega
      · subst same
        simp [used]
    · obtain ⟨left, right⟩ := apart p hp (by omega) isInner
      rw [Slots.putCellOther _ _ left, Slots.putCellOther _ _ right,
        Slots.putCellOther _ _ (by omega)]
      exact grown p positive below hp isInner
    · have absent : k + 1 ∉ fresh := fun member => by
        have := (members _).mp member
        rw [if_neg (by rw [noUp]; simp)] at this
        omega
      simp [nodup, absent]
    · rw [List.mem_cons, members]
      constructor
      · rintro (rfl | ⟨positive, bound, hm, rest⟩)
        · exact ⟨by omega, inside, own, by rw [if_neg (by rw [noUp]; simp)]⟩
        · refine ⟨positive, bound, hm, ?_⟩
          split at rest
          · rwa [if_pos (by assumption)]
          · rw [if_neg (by assumption)]; omega
      · rintro ⟨positive, bound, hm, rest⟩
        by_cases same : n = k + 1
        · exact .inl same
        · refine .inr ⟨positive, bound, hm, ?_⟩
          split at rest
          · rwa [if_pos (by assumption)]
          · rw [if_neg (by assumption)]; omega
    · simp only [Slots.putLog, List.mem_cons, not_or] at fresh
      rw [Slots.putCellOther _ _ fresh.1, kept n fresh.2]

include marked in
theorem growStep {init : Slots α} {k j : Nat} {s : Restoring α} (inside : j + 1 < t.size)
    (inv : t.Restored expand mark stored init k j s) :
    t.Restored expand mark stored init k (j + 1) (t.growAt expand mark (j + 1) s) := by
  obtain ⟨loads, used, loaded, grown, ⟨fresh, log, nodup, members⟩, kept⟩ := inv
  by_cases grows : mark (j + 1) = true ∧ t.inner (j + 1) = true
  · obtain ⟨own, isInner⟩ := grows
    have above := t.leftAbove inside isInner
    have room := t.leftBelow inside isInner
    have upLeft := t.parentLeft inside isInner
    have upRight := t.parentRight inside isInner
    have markLeft := t.markedChild marked (n := t.left (j + 1)) (by omega) (by omega) (by rwa [upLeft])
    have markRight := t.markedChild marked (n := t.left (j + 1) + 1) (by omega) room (by rwa [upRight])
    simp only [growAt, own, isInner, and_self, if_true]
    refine ⟨loads, used, fun i below => ?_, fun p positive below hp inner => ?_,
      ⟨(t.left (j + 1) + 1) :: t.left (j + 1) :: fresh, by simp [log], ?_, fun n => ?_⟩, fun n h => ?_⟩
    · have member := List.getElem_mem below
      rw [t.memTopsBelow] at member
      have noUp : mark (t.parent (t.topsBelow mark k)[i]) = false := by
        have := member.2.2
        simp only [top, Bool.and_eq_true, Bool.not_eq_true'] at this
        exact this.2
      rw [t.expandAtOther]
      · exact loaded i below
      · intro same
        rw [same, upLeft, own] at noUp
        contradiction
      · intro same
        rw [same, upRight, own] at noUp
        contradiction
    · have pAbove := t.leftAbove (show p < t.size by omega) inner
      rw [t.expandAtOther expand (j + 1) _ (m := p) (by omega) (by omega)]
      rcases Nat.le_succ_iff.mp below with lower | rfl
      · have far := t.leftApart (show p < t.size by omega) inside inner isInner
        have far' := t.leftApart inside (show p < t.size by omega) isInner inner
        have differ : t.left p ≠ t.left (j + 1) := fun same =>
          absurd (t.leftInjective (by omega) inside inner isInner same) (by omega)
        rw [t.expandAtOther expand (j + 1) _ differ far,
          t.expandAtOther expand (j + 1) _ (fun h => far' h.symm) (by omega)]
        exact grown p positive lower hp inner
      · exact ⟨t.expandAtLeft expand _ _, t.expandAtRight expand _ _⟩
    · have absent : ∀ c, t.parent c = j + 1 → c ∉ fresh := fun c up member => by
        have := (members c).mp member
        rw [if_pos (by rwa [up]), up] at this
        omega
      simp [nodup, absent _ upLeft, absent _ upRight]
    · simp only [List.mem_cons, members]
      constructor
      · rintro (rfl | rfl | ⟨positive, bound, hm, rest⟩)
        · exact ⟨by omega, room, markRight, by rw [if_pos (by rwa [upRight]), upRight]; omega⟩
        · exact ⟨by omega, by omega, markLeft, by rw [if_pos (by rwa [upLeft]), upLeft]; omega⟩
        · refine ⟨positive, bound, hm, ?_⟩
          split at rest
          · rw [if_pos (by assumption)]; omega
          · rwa [if_neg (by assumption)]
      · rintro ⟨positive, bound, hm, rest⟩
        by_cases same : t.parent n = j + 1
        · rcases t.childOf positive bound with h | h
          · exact .inr (.inl (same ▸ h))
          · exact .inl (same ▸ h)
        · refine .inr (.inr ⟨positive, bound, hm, ?_⟩)
          split at rest
          · rw [if_pos (by assumption)]; omega
          · rwa [if_neg (by assumption)]
    · simp only [expandAtLog, List.mem_cons, not_or] at h
      rw [t.expandAtOther expand _ _ h.2.1 h.1, kept n h.2.2]
  · simp only [growAt, if_neg grows]
    refine ⟨loads, used, loaded, fun p positive below hp inner => ?_,
      ⟨fresh, log, nodup, fun n => ?_⟩, kept⟩
    · rcases Nat.le_succ_iff.mp below with lower | rfl
      · exact grown p positive lower hp inner
      · exact absurd ⟨hp, inner⟩ grows
    · rw [members]
      refine and_congr_right fun positive => and_congr_right fun bound => and_congr_right fun hm => ?_
      split
      · rename_i up
        have differ : t.parent n ≠ j + 1 := fun same => by
          rw [same] at up
          have isInner := (t.parentInner positive bound).2
          rw [same] at isInner
          exact grows ⟨up, isInner⟩
        omega
      · exact Iff.rfl

include marked in
theorem restoreStep {init : Slots α} {k : Nat} {s : Restoring α} (inside : k + 1 < t.size)
    (inv : t.Restored expand mark stored init k k s) :
    t.Restored expand mark stored init (k + 1) (k + 1) (t.restoreAt expand mark stored (k + 1) s) :=
  t.growStep expand stored marked inside
    (t.loadStep expand stored (Nat.le_refl _) inside inv)

include marked in
theorem restoreRun (init : Slots α) :
    t.Restored expand mark stored init (t.size - 1) (t.size - 1) (t.restore expand mark stored init) := by
  apply Loop.upToInvariant (fun k s => t.Restored expand mark stored init k k s)
  · exact t.restoredStart expand stored init
  · exact fun k below s inv => t.restoreStep expand stored marked (by omega) inv

theorem restoredReads {init : Slots α} {k j : Nat} {s : Restoring α} {stored' : Nat → α}
    (agree : ∀ i < (t.topsBelow mark k).length, stored i = stored' i)
    (inv : t.Restored expand mark stored init k j s) : t.Restored expand mark stored' init k j s :=
  { inv with loaded := fun i h => by rw [inv.loaded i h, agree i h] }

theorem restoredUnique {init : Slots α} {s s' : Restoring α}
    (inv : t.Restored expand mark stored init (t.size - 1) (t.size - 1) s)
    (inv' : t.Restored expand mark stored init (t.size - 1) (t.size - 1) s')
    (clean : init.log = []) :
    s.nodes.cell = s'.nodes.cell ∧ s.used = s'.used ∧ s.loads = s'.loads ∧
      s.nodes.log.Perm s'.nodes.log := by
  obtain ⟨fresh, log, nodup, members⟩ := inv.written
  obtain ⟨fresh', log', nodup', members'⟩ := inv'.written
  rw [clean, List.append_nil] at log log'
  have sameMembers : ∀ n, n ∈ fresh ↔ n ∈ fresh' := fun n => by rw [members, members']
  refine ⟨?_, by rw [inv.used, inv'.used], ?_, ?_⟩
  · funext n
    induction n using Nat.strongRecOn with
    | ind n ih =>
      by_cases wrote : n ∈ fresh
      · obtain ⟨positive, bound, hm, rest⟩ := (members n).mp wrote
        split at rest
        · rename_i up
          obtain ⟨inP, isInner⟩ := t.parentInner positive bound
          have g := inv.grown _ rest.1 rest.2 up isInner
          have g' := inv'.grown _ rest.1 rest.2 up isInner
          rw [ih _ (t.parentBelow positive bound)] at g
          rcases t.childOf positive bound with h | h
          · rw [h, g.1, g'.1]
          · rw [h, g.2, g'.2]
        · rename_i noUp
          have isTop : n ∈ t.topsBelow mark (t.size - 1) :=
            (t.memTopsBelow).mpr ⟨positive, rest, by simp [top, hm, noUp]⟩
          obtain ⟨i, below, same⟩ := List.mem_iff_getElem.mp isTop
          rw [← same, inv.loaded i below, inv'.loaded i below]
      · rw [inv.kept n (by rwa [log]), inv'.kept n (by rwa [log', ← sameMembers n])]
  · have := inv.loads.trans inv'.loads.symm
    exact List.reverse_injective this
  · rw [log, log']
    exact (List.perm_ext_iff_of_nodup nodup nodup').mpr sameMembers

end Restore

theorem restoredValue (expand : Nat → α → α × α) {mark : Nat → Bool} (stored tree : Nat → α)
    {init : Slots α} {s : Restoring α} (mixed : mark 0 = false)
    (inv : t.Restored expand mark stored init (t.size - 1) (t.size - 1) s)
    (whole : ∀ p < t.size, t.inner p = true →
      tree (t.left p) = (expand p (tree p)).1 ∧ tree (t.left p + 1) = (expand p (tree p)).2)
    (honest : ∀ i, (h : i < (t.tops mark).length) → stored i = tree (t.tops mark)[i]) :
    ∀ n < t.size, mark n = true → s.nodes.cell n = tree n := by
  refine t.downward (fun h => by rw [mixed] at h; contradiction) ?_
  intro n positive inside ih hm
  rcases t.topOrBelow hm with isTop | up
  · obtain ⟨i, below, same⟩ := List.mem_iff_getElem.mp ((t.memTops).mpr ⟨positive, inside, isTop⟩)
    rw [← same, ← honest i below]
    exact inv.loaded i below
  · obtain ⟨inP, isInner⟩ := t.parentInner positive inside
    have pos : 0 < t.parent n := Nat.pos_of_ne_zero fun zero => by
      rw [zero, mixed] at up; contradiction
    have own := inv.grown _ pos (by omega) up isInner
    have orig := whole _ inP isInner
    rw [ih up] at own
    rcases t.childOf positive inside with h | h
    · rw [h, own.1, orig.1]
    · rw [h, own.2, orig.2]

end Armor.LinTree
