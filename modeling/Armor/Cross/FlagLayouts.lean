import Armor.Cross.SeedTree

/-! The two versions of `compute_seeds_to_publish` on any layout of levels: right to left a pair at
a time, and left to right with four pairs unrolled. -/
namespace Armor.Cross

namespace TreeTables

variable (t : TreeTables)

def startNode : Nat → Nat
  | 0 => t.leavesStart 0
  | done + 1 => u32Sub (startNode done) (t.npl (t.logT - (done + 1)))

def firstNode (level : Nat) : Nat := t.startNode (t.logT - level)

theorem firstNodeLast : t.firstNode t.logT = t.leavesStart 0 := by
  rw [firstNode, Nat.sub_self, startNode]

theorem firstNodeStep {level : Nat} (below : level < t.logT) :
    u32Sub (t.firstNode (level + 1)) (t.npl level) = t.firstNode level := by
  have count : t.logT - level = t.logT - (level + 1) + 1 := by omega
  rw [firstNode, firstNode, count, startNode, show t.logT - (t.logT - (level + 1) + 1) = level by omega]

theorem levelsDownCongr {σ : Type _} {f g : Nat → Nat → σ → σ}
    (same : ∀ level < t.logT, ∀ s, f (t.firstNode (level + 1)) (level + 1) s =
      g (t.firstNode (level + 1)) (level + 1) s) (s : σ) : levelsDown t f s = levelsDown t g s := by
  have run : ∀ k ≤ t.logT, ∀ s,
      Loop.downFrom k (fun l s => (u32Sub s.1 (t.npl l), f s.1 (l + 1) s.2)) (t.firstNode k, s) =
      Loop.downFrom k (fun l s => (u32Sub s.1 (t.npl l), g s.1 (l + 1) s.2)) (t.firstNode k, s) := by
    intro k
    induction k with
    | zero => exact fun _ _ => rfl
    | succ k ih =>
      intro le s
      rw [Loop.downFromSucc, Loop.downFromSucc, same k le, t.firstNodeStep le]
      exact ih (Nat.le_of_succ_le le) _
  rw [levelsDown, levelsDown, ← t.firstNodeLast, run _ (Nat.le_refl _)]

end TreeTables

structure FlagLayout extends TreeTables where
  even : ∀ level < logT, toTreeTables.npl (level + 1) % 2 = 0
  parentsBefore : ∀ level < logT, ∀ i < toTreeTables.npl (level + 1),
    parentIndex (toTreeTables.firstNode (level + 1) + i) + toTreeTables.off level / 2 <
      toTreeTables.firstNode (level + 1)

structure NarrowLayout extends FlagLayout where
  narrow : ∀ level < logT, toTreeTables.firstNode (level + 1) + toTreeTables.npl (level + 1) ≤ 65536

namespace SeedTree

theorem bothPublishedCommute {cur sib par cur' sib' par' : Nat} (writes : par ≠ par')
    (reads : par ≠ cur' ∧ par ≠ sib') (reads' : par' ≠ cur ∧ par' ≠ sib) (flags : Mem) :
    bothPublished cur sib par (bothPublished cur' sib' par' flags) =
      bothPublished cur' sib' par' (bothPublished cur sib par flags) := by
  unfold bothPublished
  rw [Function.update_of_ne reads'.1.symm, Function.update_of_ne reads'.2.symm, Function.update_of_ne reads.1.symm,
    Function.update_of_ne reads.2.symm, Function.update_comm writes.symm]

variable (t : NarrowLayout) {level : Nat} (below : level < t.logT)

def flagPair (level i : Nat) (flags : Mem) : Mem :=
  let node := t.firstNode (level + 1) + i
  bothPublished node (siblingIndex node) (parentIndex node + t.off level / 2) flags

include below

theorem pairNode {i : Nat} (width : i < t.npl (level + 1)) :
    u16 (t.firstNode (level + 1) + i) = t.firstNode (level + 1) + i := by
  have := t.narrow level below
  exact u16Small (by omega)

theorem pairParent {i : Nat} (width : i < t.npl (level + 1)) :
    u16 (parentIndex (t.firstNode (level + 1) + i) + t.off level / 2) =
      parentIndex (t.firstNode (level + 1) + i) + t.off level / 2 := by
  have := t.narrow level below
  have := t.parentsBefore level below i width
  exact u16Small (by omega)

theorem adjustNarrow {i : Nat} (width : i < t.npl (level + 1)) : u16 (t.off level / 2) = t.off level / 2 := by
  have := t.narrow level below
  have := t.parentsBefore level below i width
  exact u16Small (by omega)

theorem siblingNarrow {i : Nat} (even : i % 2 = 0) (width : i < t.npl (level + 1)) :
    u16 (siblingIndex (t.firstNode (level + 1) + i)) = siblingIndex (t.firstNode (level + 1) + i) := by
  have := t.narrow level below
  have := t.even level below
  refine u16Small ?_
  rw [siblingIndex]
  split <;> omega

theorem parentBeforePairs {i j : Nat} (even : i % 2 = 0) (evenJ : j % 2 = 0) (width : i < t.npl (level + 1)) :
    parentIndex (t.firstNode (level + 1) + i) + t.off level / 2 < t.firstNode (level + 1) + j ∧
      parentIndex (t.firstNode (level + 1) + i) + t.off level / 2 < siblingIndex (t.firstNode (level + 1) + j) := by
  have wide := t.even level below
  have lower := t.parentsBefore level below i width
  have upper := t.parentsBefore level below (i + 1) (by omega)
  unfold parentIndex at lower upper ⊢
  unfold siblingIndex
  by_cases odd : t.firstNode (level + 1) % 2 = 1
  · rw [if_pos (by omega)] at lower
    rw [if_pos (by omega), if_pos (by omega)]
    omega
  · rw [if_pos (by omega)] at upper
    rw [if_neg (by omega), if_neg (by omega)]
    omega

theorem parentsApart {i j : Nat} (even : i % 2 = 0) (evenJ : j % 2 = 0) (apart : i ≠ j) (width : 0 < t.npl (level + 1)) :
    parentIndex (t.firstNode (level + 1) + i) + t.off level / 2 ≠
      parentIndex (t.firstNode (level + 1) + j) + t.off level / 2 := by
  have positive := t.parentsBefore level below 0 width
  unfold parentIndex
  split <;> split <;> omega

theorem flagPairsCommute {i j : Nat} (evenI : i % 2 = 0) (evenJ : j % 2 = 0) (widthI : i < t.npl (level + 1))
    (widthJ : j < t.npl (level + 1)) (flags : Mem) :
    flagPair t level i (flagPair t level j flags) = flagPair t level j (flagPair t level i flags) := by
  by_cases same : i = j
  · rw [same]
  · have first := parentBeforePairs t below evenI evenJ widthI
    have second := parentBeforePairs t below evenJ evenI widthJ
    have writes := parentsApart t below evenI evenJ same (Nat.lt_of_le_of_lt (Nat.zero_le i) widthI)
    exact bothPublishedCommute writes ⟨Nat.ne_of_lt first.1, Nat.ne_of_lt first.2⟩
      ⟨Nat.ne_of_lt second.1, Nat.ne_of_lt second.2⟩ flags

theorem portableLevel (flags : Mem) :
    Loop.downByTwo (t.npl (level + 1)) (fun i flags =>
      let currentNode := u16 (t.firstNode (level + 1) + i)
      let parentNode := u16 (parentIndex currentNode + t.off level / 2)
      bothPublished currentNode (siblingIndex currentNode) parentNode flags) flags =
    Loop.downFrom (t.npl (level + 1) / 2) (fun j => flagPair t level (2 * j)) flags := by
  rw [Loop.downByTwoEven (t.even level below)]
  refine Loop.downFromCongr (fun j width flags => ?_) flags
  have inside : 2 * j < t.npl (level + 1) := by omega
  dsimp only
  rw [pairNode t below inside, pairParent t below inside]
  rfl

theorem sve2Level (flags : Mem) :
    (let parentAdj := u16 (t.off level / 2)
     let numNodes := t.npl (level + 1)
     let unrolled := Loop.strided 8 0 numNodes (fun i flags =>
       (Loop.strided 2 0 8 (fun k flags =>
         let cur := u16 (t.firstNode (level + 1) + i + k)
         let sib := u16 (siblingIndex cur)
         let par := u16 (parentIndex cur + parentAdj)
         bothPublished cur sib par flags) flags).2) flags
     (Loop.strided 2 unrolled.1 numNodes (fun i flags =>
       let cur := u16 (t.firstNode (level + 1) + i)
       let par := u16 (parentIndex cur + parentAdj)
       bothPublished cur (siblingIndex cur) par flags) unrolled.2).2) =
    Loop.upTo (t.npl (level + 1) / 2) (fun j => flagPair t level (2 * j)) flags := by
  have wide := t.even level below
  have unrolled : ∀ m < t.npl (level + 1) / 8, ∀ k < 8 / 2, ∀ flags,
      bothPublished (u16 (t.firstNode (level + 1) + (0 + m * 8) + (0 + k * 2)))
        (u16 (siblingIndex (u16 (t.firstNode (level + 1) + (0 + m * 8) + (0 + k * 2)))))
        (u16 (parentIndex (u16 (t.firstNode (level + 1) + (0 + m * 8) + (0 + k * 2))) + u16 (t.off level / 2)))
        flags = flagPair t level (0 + m * 8 + (0 + k * 2)) flags := by
    intro m hm k hk flags
    have width : 0 + m * 8 + (0 + k * 2) < t.npl (level + 1) := by omega
    rw [Nat.add_assoc (t.firstNode (level + 1)), pairNode t below width, adjustNarrow t below width,
      siblingNarrow t below (by omega) width, pairParent t below width]
    rfl
  have first : ∀ flags, Loop.strided 8 0 (t.npl (level + 1)) (fun i flags =>
      (Loop.strided 2 0 8 (fun k flags =>
        bothPublished (u16 (t.firstNode (level + 1) + i + k))
          (u16 (siblingIndex (u16 (t.firstNode (level + 1) + i + k))))
          (u16 (parentIndex (u16 (t.firstNode (level + 1) + i + k)) + u16 (t.off level / 2))) flags) flags).2) flags =
      Loop.strided (4 * 2) 0 (t.npl (level + 1)) (fun i flags =>
        (Loop.strided 2 0 (4 * 2) (fun k => flagPair t level (i + k)) flags).2) flags :=
    fun flags => Loop.stridedCongr (fun m hm u => congrArg Prod.snd
      (Loop.stridedCongr (fun k hk v => unrolled m hm k hk v) u)) flags
  have rest : ∀ lo flags, lo % 2 = 0 → Loop.strided 2 lo (t.npl (level + 1)) (fun i flags =>
      bothPublished (u16 (t.firstNode (level + 1) + i)) (siblingIndex (u16 (t.firstNode (level + 1) + i)))
        (u16 (parentIndex (u16 (t.firstNode (level + 1) + i)) + u16 (t.off level / 2))) flags) flags =
      Loop.strided 2 lo (t.npl (level + 1)) (flagPair t level) flags :=
    fun lo flags even => Loop.stridedCongr (fun k hk u => by
      have width : lo + k * 2 < t.npl (level + 1) := by omega
      rw [pairNode t below width, adjustNarrow t below width, pairParent t below width]
      rfl) flags
  simp only [first]
  rw [rest _ _ (by simp only [Loop.strided]; omega),
    Loop.stridedTail 2 4 (t.npl (level + 1)) (flagPair t level) flags (by omega) (by omega)]
  simp only [Loop.strided, Nat.sub_zero, Nat.zero_add, Nat.mul_comm _ 2]

theorem pairsEitherWay (flags : Mem) :
    Loop.upTo (t.npl (level + 1) / 2) (fun j => flagPair t level (2 * j)) flags =
      Loop.downFrom (t.npl (level + 1) / 2) (fun j => flagPair t level (2 * j)) flags := by
  have wide := t.even level below
  refine Loop.upToDownFrom (fun i here j there flags => ?_) flags
  exact flagPairsCommute t below (by omega) (by omega) (by omega) (by omega) flags

omit below in
theorem unrolledFlagsSame (flagsTree indicesToPublish : Mem) :
    Sve2.computeSeedsToPublish t.toTreeTables flagsTree indicesToPublish =
      Portable.computeSeedsToPublish t.toTreeTables flagsTree indicesToPublish := by
  refine TreeTables.levelsDownCongr _ (fun level below flags => ?_) _
  calc
    _ = Loop.upTo (t.npl (level + 1) / 2) (fun j => flagPair t level (2 * j)) flags := sve2Level t below flags
    _ = Loop.downFrom (t.npl (level + 1) / 2) (fun j => flagPair t level (2 * j)) flags :=
      pairsEitherWay t below flags
    _ = _ := (portableLevel t below flags).symm

def wideTables : TreeTables where
  leaves := 8
  logT := 1
  offsets := [0, 0]
  nodesPerLevel := [1, 8]
  leavesPerLevel := [0, 8]
  leavesStartIndices := [65535]
  consecutiveLeaves := [8]

omit below in
theorem wideEven : ∀ level < wideTables.logT, wideTables.npl (level + 1) % 2 = 0 := by decide

omit below in
theorem wideParentsBefore : ∀ level < wideTables.logT, ∀ i < wideTables.npl (level + 1),
    parentIndex (wideTables.firstNode (level + 1) + i) + wideTables.off level / 2 <
      wideTables.firstNode (level + 1) := by
  decide

def wideLayout : FlagLayout where
  toTreeTables := wideTables
  even := wideEven
  parentsBefore := wideParentsBefore

omit below in
/-- `uint16_t sib` of node 65535 is the root, `SIBLING(current_node)` the node 65536. -/
theorem wideFlagsDiffer :
    Sve2.computeSeedsToPublish wideLayout.toTreeTables (fun _ => notToPublish) (fun _ => toPublish) ≠
      Portable.computeSeedsToPublish wideLayout.toTreeTables (fun _ => notToPublish) fun _ => toPublish := by
  intro same
  have parent := congrFun same 32767
  revert parent
  decide +kernel

end SeedTree

namespace TreeLayout

variable (t : TreeLayout)

theorem firstNodeStart {level : Nat} (le : level ≤ t.logT) : t.firstNode level = t.levelStart level := by
  have run : ∀ done ≤ t.logT, t.startNode done = t.levelStart (t.logT - done) := by
    intro done
    induction done with
    | zero => exact fun _ => t.leavesStartFirst
    | succ done ih =>
      intro room
      have last : t.logT - done = t.logT - (done + 1) + 1 := by omega
      have step : t.levelStart (t.logT - (done + 1) + 1) =
        t.levelStart (t.logT - (done + 1)) + t.npl (t.logT - (done + 1)) := rfl
      have bound := t.startBelow (show t.logT - (done + 1) ≤ t.logT by omega)
      have := t.small
      rw [TreeTables.startNode, ih (by omega), last, u32SubSmall (by omega) (by omega)]
      omega
  rw [TreeTables.firstNode, run _ (Nat.sub_le _ _), show t.logT - (t.logT - level) = level by omega]

theorem nodesNarrow {level : Nat} (below : level < t.logT) :
    t.firstNode (level + 1) + t.npl (level + 1) ≤ 65536 := by
  have next : level + 1 ≤ t.logT := below
  have bound := t.startBelow next
  have := t.small
  rw [t.firstNodeStart next]
  omega

theorem parentsEarlier {level : Nat} (below : level < t.logT) {i : Nat} (width : i < t.npl (level + 1)) :
    parentIndex (t.firstNode (level + 1) + i) + t.off level / 2 < t.firstNode (level + 1) := by
  have offset := t.offsetsMatch level below
  have widths := t.widths level below
  have next : level + 1 ≤ t.logT := below
  have step : t.levelStart (level + 1) = t.levelStart level + t.npl level := rfl
  rw [t.firstNodeStart next, parentIndex]
  split <;> omega

def flagLayout : NarrowLayout where
  toTreeTables := t.toTreeTables
  even := fun _ below => t.nplEven below
  parentsBefore := fun _ below _ width => t.parentsEarlier below width
  narrow := fun _ below => t.nodesNarrow below

end TreeLayout
end Armor.Cross
