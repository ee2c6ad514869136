import Armor.Lib.Counting
import Mathlib.Data.Nat.Find
import Mathlib.Data.List.Nodup

/-! The level tables of the truncated seed and Merkle trees, and the tree they describe.
Level `l` holds `npl l` nodes of which the last `lpl l` are leaves; `off l` corrects the
child index of the complete binary tree for the nodes missing above. -/
namespace Armor.Cross

structure TreeTables where
  leaves : Nat
  logT : Nat
  offsets : List Nat
  nodesPerLevel : List Nat
  leavesPerLevel : List Nat
  leavesStartIndices : List Nat
  consecutiveLeaves : List Nat

namespace TreeTables

variable (t : TreeTables)

def off (level : Nat) : Nat := t.offsets.getD level 0
def npl (level : Nat) : Nat := t.nodesPerLevel.getD level 0
def lpl (level : Nat) : Nat := t.leavesPerLevel.getD level 0
def subroots : Nat := t.leavesStartIndices.length
def leavesStart (i : Nat) : Nat := t.leavesStartIndices.getD i 0
def consLeaves (i : Nat) : Nat := t.consecutiveLeaves.getD i 0

def numNodes : Nat := 2 * t.leaves - 1

def expandable (level : Nat) : Nat := t.npl level - t.lpl level

def levelStart : Nat → Nat
  | 0 => 0
  | level + 1 => levelStart level + t.npl level

def leafRuns : List (Nat × Nat) := t.leavesStartIndices.zip t.consecutiveLeaves

def leafNodes : List Nat := t.leafRuns.flatMap fun run => (List.range run.2).map (run.1 + ·)

end TreeTables

structure TreeLayout extends TreeTables where
  rootLevel : toTreeTables.npl 0 = 1
  widths : ∀ level < logT,
    toTreeTables.lpl level ≤ toTreeTables.npl level ∧
    toTreeTables.npl (level + 1) = 2 * (toTreeTables.npl level - toTreeTables.lpl level)
  lastLevel : toTreeTables.lpl logT = toTreeTables.npl logT ∧ 0 < toTreeTables.npl logT
  offsetsMatch : ∀ level < logT, toTreeTables.off level % 2 = 0 ∧
    toTreeTables.levelStart (level + 1) + toTreeTables.off level = 2 * toTreeTables.levelStart level + 1
  total : toTreeTables.levelStart (logT + 1) = toTreeTables.numNodes
  small : toTreeTables.numNodes < 32768
  runs : toTreeTables.leafRuns =
    ((List.range (logT + 1)).reverse.filter fun level => toTreeTables.lpl level ≠ 0).map fun level =>
      (toTreeTables.levelStart level + toTreeTables.expandable level, toTreeTables.lpl level)
  sameLength : leavesStartIndices.length = consecutiveLeaves.length
  allLeaves : consecutiveLeaves.sum = leaves
  paired : ∀ level ≤ logT, 0 < level → toTreeTables.expandable level % 2 = 0

namespace TreeLayout

variable (t : TreeLayout)

theorem startMono {a b : Nat} (le : a ≤ b) : t.levelStart a ≤ t.levelStart b := by
  induction le with
  | refl => exact Nat.le_refl _
  | step _ ih => exact Nat.le_trans ih (Nat.le_add_right _ _)

theorem startBelow {level : Nat} (inside : level ≤ t.logT) :
    t.levelStart level + t.npl level ≤ t.numNodes := by
  have := t.startMono (show level + 1 ≤ t.logT + 1 by omega)
  rwa [t.total] at this

def levelOf (n : Nat) : Nat := Nat.findGreatest (fun level => t.levelStart level ≤ n) t.logT

theorem levelOfNode {level i : Nat} (inside : level ≤ t.logT) (width : i < t.npl level) :
    t.levelOf (t.levelStart level + i) = level := by
  apply Nat.findGreatest_eq_iff.mpr
  refine ⟨inside, fun _ => by omega, fun k above _ => ?_⟩
  have := t.startMono (show level + 1 ≤ k from above)
  have step : t.levelStart (level + 1) = t.levelStart level + t.npl level := rfl
  omega

theorem nodeAt {n : Nat} (inside : n < t.numNodes) :
    ∃ level i, level ≤ t.logT ∧ i < t.npl level ∧ n = t.levelStart level + i := by
  have bound : n < t.levelStart (t.logT + 1) := by rwa [t.total]
  have search : ∀ k, n < t.levelStart (k + 1) →
      ∃ level i, level ≤ k ∧ i < t.npl level ∧ n = t.levelStart level + i := by
    intro k
    induction k with
    | zero =>
      intro below
      exact ⟨0, n, Nat.le_refl _, by simpa [TreeTables.levelStart] using below, by simp [TreeTables.levelStart]⟩
    | succ k ih =>
      intro below
      by_cases lower : n < t.levelStart (k + 1)
      · obtain ⟨level, i, le, width, same⟩ := ih lower
        exact ⟨level, i, by omega, width, same⟩
      · have step : t.levelStart (k + 1 + 1) = t.levelStart (k + 1) + t.npl (k + 1) := rfl
        exact ⟨k + 1, n - t.levelStart (k + 1), Nat.le_refl _, by omega, by omega⟩
  exact search t.logT bound

def inner (n : Nat) : Bool :=
  n - t.levelStart (t.levelOf n) < t.expandable (t.levelOf n) && t.levelOf n < t.logT

def left (n : Nat) : Nat :=
  t.levelStart (t.levelOf n + 1) + 2 * (n - t.levelStart (t.levelOf n))

def parent (n : Nat) : Nat :=
  t.levelStart (t.levelOf n - 1) + (n - t.levelStart (t.levelOf n)) / 2

theorem innerNode {level i : Nat} (inside : level ≤ t.logT) (width : i < t.npl level) :
    t.inner (t.levelStart level + i) = decide (i < t.expandable level) := by
  rw [inner, t.levelOfNode inside width, Nat.add_sub_cancel_left]
  rcases Nat.lt_or_ge level t.logT with below | last
  · simp [below]
  · have last : level = t.logT := by omega
    have := t.lastLevel.1
    simp only [TreeTables.expandable, last, this]
    simp

theorem leftNode {level i : Nat} (inside : level ≤ t.logT) (width : i < t.npl level) :
    t.left (t.levelStart level + i) = t.levelStart (level + 1) + 2 * i := by
  rw [left, t.levelOfNode inside width, Nat.add_sub_cancel_left]

theorem parentNode {level i : Nat} (inside : level < t.logT) (width : i < t.npl (level + 1)) :
    t.parent (t.levelStart (level + 1) + i) = t.levelStart level + i / 2 := by
  rw [parent, t.levelOfNode inside width, Nat.add_sub_cancel_left, Nat.succ_sub_one]

theorem nextLevel {level i : Nat} (inside : level ≤ t.logT) (isInner : i < t.expandable level) :
    level < t.logT ∧ t.npl (level + 1) = 2 * t.expandable level ∧ i < t.npl level := by
  have notLast : level ≠ t.logT := by
    rintro rfl
    simp only [TreeTables.expandable, t.lastLevel.1] at isInner
    omega
  have width := t.widths level (by omega)
  refine ⟨by omega, width.2, ?_⟩
  simp only [TreeTables.expandable] at isInner
  omega

theorem startOdd {level : Nat} (inside : level < t.logT) : t.levelStart (level + 1) % 2 = 1 := by
  have := t.offsetsMatch level inside
  omega

def tree : LinTree where
  size := t.numNodes
  inner := t.inner
  left := t.left
  parent := t.parent
  nonempty := by
    have := t.startBelow (Nat.zero_le t.logT)
    rw [t.rootLevel] at this
    omega
  leftAbove := by
    intro n inside isInner
    obtain ⟨level, i, le, width, rfl⟩ := t.nodeAt inside
    rw [t.innerNode le width, decide_eq_true_eq] at isInner
    have := (t.nextLevel le isInner).1
    rw [t.leftNode le width]
    have step : t.levelStart (level + 1) = t.levelStart level + t.npl level := rfl
    omega
  leftBelow := by
    intro n inside isInner
    obtain ⟨level, i, le, width, rfl⟩ := t.nodeAt inside
    rw [t.innerNode le width, decide_eq_true_eq] at isInner
    have next := t.nextLevel le isInner
    have bound := t.startBelow (show level + 1 ≤ t.logT by omega)
    rw [t.leftNode le width]
    omega
  leftOdd := by
    intro n inside isInner
    obtain ⟨level, i, le, width, rfl⟩ := t.nodeAt inside
    rw [t.innerNode le width, decide_eq_true_eq] at isInner
    have next := t.nextLevel le isInner
    have := t.startOdd next.1
    rw [t.leftNode le width]
    omega
  parentLeft := by
    intro n inside isInner
    obtain ⟨level, i, le, width, rfl⟩ := t.nodeAt inside
    rw [t.innerNode le width, decide_eq_true_eq] at isInner
    have next := t.nextLevel le isInner
    rw [t.leftNode le width, t.parentNode next.1 (by omega)]
    omega
  parentRight := by
    intro n inside isInner
    obtain ⟨level, i, le, width, rfl⟩ := t.nodeAt inside
    rw [t.innerNode le width, decide_eq_true_eq] at isInner
    have next := t.nextLevel le isInner
    rw [t.leftNode le width, Nat.add_assoc, t.parentNode next.1 (by omega)]
    omega
  parentInner := by
    intro n positive inside
    obtain ⟨level, i, le, width, rfl⟩ := t.nodeAt inside
    cases level with
    | zero =>
      rw [t.rootLevel] at width
      simp only [TreeTables.levelStart] at positive
      omega
    | succ level =>
      have wide := t.widths level (by omega)
      have bound := t.startBelow (show level ≤ t.logT by omega)
      have half : i / 2 < t.expandable level := by simp only [TreeTables.expandable]; omega
      have width' : i / 2 < t.npl level := (t.nextLevel (by omega) half).2.2
      rw [t.parentNode (by omega) width, t.innerNode (by omega) width', decide_eq_true_eq]
      exact ⟨by omega, half⟩
  childOf := by
    intro n positive inside
    obtain ⟨level, i, le, width, rfl⟩ := t.nodeAt inside
    cases level with
    | zero =>
      rw [t.rootLevel] at width
      simp only [TreeTables.levelStart] at positive
      omega
    | succ level =>
      have wide := t.widths level (by omega)
      have half : i / 2 < t.expandable level := by simp only [TreeTables.expandable]; omega
      have width' : i / 2 < t.npl level := (t.nextLevel (by omega) half).2.2
      rw [t.parentNode (by omega) width, t.leftNode (by omega) width']
      omega

theorem memLeafNodes {n : Nat} : n ∈ t.leafNodes ↔ n < t.numNodes ∧ t.inner n = false := by
  simp only [TreeTables.leafNodes, t.runs, List.mem_flatMap, List.mem_map, List.mem_filter,
    List.mem_reverse, List.mem_range]
  constructor
  · rintro ⟨_, ⟨level, ⟨le, some⟩, rfl⟩, j, below, rfl⟩
    have le : level ≤ t.logT := by omega
    have lpl : t.lpl level ≤ t.npl level := by
      rcases Nat.lt_or_ge level t.logT with lower | last
      · exact (t.widths level lower).1
      · have : level = t.logT := by omega
        rw [this, t.lastLevel.1]
    have width : t.expandable level + j < t.npl level := by
      simp only [TreeTables.expandable]
      dsimp only at below
      omega
    have bound := t.startBelow le
    dsimp only
    rw [Nat.add_assoc, t.innerNode le width]
    exact ⟨by omega, by simp⟩
  · rintro ⟨inside, leaf⟩
    obtain ⟨level, i, le, width, rfl⟩ := t.nodeAt inside
    rw [t.innerNode le width, decide_eq_false_iff_not] at leaf
    have far : t.expandable level + t.lpl level = t.npl level := by
      simp only [TreeTables.expandable] at leaf ⊢
      rcases Nat.lt_or_ge level t.logT with lower | last
      · have := (t.widths level lower).1; omega
      · have : level = t.logT := by omega
        rw [this, t.lastLevel.1]; omega
    refine ⟨_, ⟨level, ⟨by omega, ?_⟩, rfl⟩, i - t.expandable level, ?_, ?_⟩
    · simp only [ne_eq, decide_not, Bool.not_eq_true', decide_eq_false_iff_not]
      omega
    · dsimp only; omega
    · dsimp only; omega

theorem leafNodesNodup : t.leafNodes.Nodup := by
  rw [TreeTables.leafNodes, t.runs, List.flatMap_map, List.nodup_flatMap]
  constructor
  · intro level _
    exact List.Nodup.map (fun a b h => by simpa using h) List.nodup_range
  · have sorted : ((List.range (t.logT + 1)).reverse.filter fun level => t.lpl level ≠ 0).Pairwise
        fun a b => b < a := by
      apply List.Pairwise.filter
      exact List.pairwise_reverse.mpr List.pairwise_lt_range
    refine sorted.imp_of_mem fun {a b} ha hb below n left right => ?_
    simp only [List.mem_filter, List.mem_reverse, List.mem_range] at ha hb
    simp only [List.mem_map, List.mem_range] at left right
    obtain ⟨i, hi, rfl⟩ := left
    obtain ⟨j, hj, same⟩ := right
    have mono := t.startMono (show b + 1 ≤ a from below)
    have step : t.levelStart (b + 1) = t.levelStart b + t.npl b := rfl
    have lpl := (t.widths b (by omega)).1
    simp only [TreeTables.expandable] at same
    omega

theorem leafNodesLength : t.leafNodes.length = t.leaves := by
  have run : ∀ l : List (Nat × Nat),
      (l.flatMap fun run => (List.range run.2).map (run.1 + ·)).length = (l.map Prod.snd).sum := by
    intro l
    induction l with
    | nil => rfl
    | cons a l ih => simp [ih]
  rw [TreeTables.leafNodes, run, TreeTables.leafRuns, List.map_snd_zip, t.allLeaves]
  exact Nat.le_of_eq t.sameLength.symm

theorem leavesFinset : t.tree.leaves = t.leafNodes.toFinset := by
  ext n
  rw [LinTree.memLeaves, List.mem_toFinset, t.memLeafNodes]
  rfl

theorem leavesCard : t.tree.leaves.card = t.leaves := by
  rw [t.leavesFinset, List.toFinset_card_of_nodup t.leafNodesNodup, t.leafNodesLength]

theorem siblingsPaired {n : Nat} (inside : n < t.tree.size) (isInner : t.tree.inner n = true) :
    t.tree.inner (t.tree.left n) = t.tree.inner (t.tree.left n + 1) := by
  obtain ⟨level, i, le, width, rfl⟩ := t.nodeAt inside
  change t.inner _ = true at isInner
  rw [t.innerNode le width, decide_eq_true_eq] at isInner
  have next := t.nextLevel le isInner
  have even := t.paired (level + 1) (by omega) (by omega)
  change t.inner (t.left _) = t.inner (t.left _ + 1)
  rw [t.leftNode le width, Nat.add_assoc, t.innerNode (by omega) (by omega),
    t.innerNode (by omega) (by omega), decide_eq_decide]
  omega

theorem weightPerfect (perfect : ∀ level < t.logT, t.lpl level = 0) {level i : Nat}
    (le : level ≤ t.logT) (width : i < t.npl level) :
    t.tree.weight (fun _ => 1) (t.levelStart level + i) = 2 ^ (t.logT - level) := by
  induction h : t.logT - level generalizing level i with
  | zero =>
    have last : level = t.logT := by omega
    have leaf : t.tree.inner (t.levelStart level + i) = false := by
      change t.inner _ = false
      rw [t.innerNode le width, decide_eq_false_iff_not]
      simp only [TreeTables.expandable, last, t.lastLevel.1]
      omega
    rw [t.tree.weightLeaf _ leaf, Nat.pow_zero]
  | succ d ih =>
    have isInner : i < t.expandable level := by
      simp only [TreeTables.expandable, perfect level (by omega)]
      omega
    have next := t.nextLevel le isInner
    have bound := t.startBelow le
    have here : t.tree.inner (t.levelStart level + i) = true := by
      change t.inner _ = true
      rw [t.innerNode le width, decide_eq_true_eq]
      exact isInner
    have left : t.tree.left (t.levelStart level + i) = t.levelStart (level + 1) + 2 * i := t.leftNode le width
    rw [t.tree.weightInner _ (by change _ < t.numNodes; omega) here, left, Nat.add_assoc,
      ih (by omega) (by omega) (by omega), ih (by omega) (by omega) (by omega), Nat.pow_succ]
    omega

theorem siblingsBalanced (perfect : ∀ level < t.logT, t.lpl level = 0) {n : Nat}
    (inside : n < t.tree.size) (isInner : t.tree.inner n = true) :
    t.tree.weight (fun _ => 1) (t.tree.left n) = t.tree.weight (fun _ => 1) (t.tree.left n + 1) := by
  obtain ⟨level, i, le, width, rfl⟩ := t.nodeAt inside
  change t.inner _ = true at isInner
  rw [t.innerNode le width, decide_eq_true_eq] at isInner
  have next := t.nextLevel le isInner
  have left : t.tree.left (t.levelStart level + i) = t.levelStart (level + 1) + 2 * i := t.leftNode le width
  rw [left, Nat.add_assoc, t.weightPerfect perfect (by omega) (by omega),
    t.weightPerfect perfect (by omega) (by omega)]

end TreeLayout
end Armor.Cross
