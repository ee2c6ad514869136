import Armor.Cross.SchemeEquivalence

/-! The SVE2 tree functions against the portable ones: the same seed tree, the same rebuilt
tree, the same Merkle tree and the same recomputed root, whatever the arrays hold. -/
namespace Armor.Cross

namespace Merkle

variable (p : Parameters) (shake : Shake)

def bothNeeded (startNode i : Nat) (s : Recompute p) : Bool :=
  needed p (u16 (startNode + i)) s && needed p (u16 (startNode + (i - 2))) s

def hashTwoPairs (mtp : Mem) (adj startNode i : Nat) (s : Recompute p) : Recompute p :=
  let node1 := u16 (startNode + i)
  let node2 := u16 (startNode + (i - 2))
  let parent1 := u16 (parentIndex node1 + adj)
  let parent2 := u16 (parentIndex node2 + adj)
  let left1 := takeNode p mtp node1 s
  let right1 := takeNode p mtp (u16 (siblingIndex node1)) left1.2
  let left2 := takeNode p mtp node2 right1.2
  let right2 := takeNode p mtp (u16 (siblingIndex node2)) left2.2
  let digests := hashPar p shake 2 (left1.1.value.toList ++ right1.1.value.toList)
    (left2.1.value.toList ++ right2.1.value.toList) hashDomainSepConst hashDomainSepConst
  storeDigest p parent2 left2.1 right2.1 digests.2 (storeDigest p parent1 left1.1 right1.1 digests.1 right2.2)

def hashOnePair (mtp : Mem) (adj startNode i : Nat) (s : Recompute p) : Recompute p :=
  let currentNode := u16 (startNode + i)
  let parentNode := u16 (parentIndex currentNode + adj)
  if needed p currentNode s then hashPairInto p shake mtp currentNode parentNode s else s

/-- `Sve2.recomputeRoot` with its inner loops as loops, each cut after `fuel` iterations; nothing
if one of them was cut. -/
def Sve2.recomputeRootLoops (fuel : Nat) (tree recomputedLeaves : Digests p) (mtp leavesToReveal : Mem) :
    Option (RecomputedRoot p) := do
  let t := p.layout.toTreeTables
  let s ← levelsDown t (fun startNode level s => do
    let s ← s
    Loop.attemptLoops fuel (bothNeeded p startNode) (hashTwoPairs p shake mtp (t.off (level - 1) / 2) startNode)
      (hashOnePair p shake mtp (t.off (level - 1) / 2) startNode) (t.npl level) s)
    (some ⟨placeCmtOnLeaves p tree recomputedLeaves, labelLeaves t (fun _ => notComputed) leavesToReveal, 0, []⟩)
  some ⟨s.tree 0, SeedTree.paddingClear p mtp s.published p.hashLength, s⟩

theorem levelFits {l : Nat} (below : l < p.layout.logT) : p.layout.npl (l + 1) ≤ p.layout.numNodes := by
  have := p.layout.startBelow (show l + 1 ≤ p.layout.logT from below)
  omega

theorem recomputeRootEnds {fuel : Nat} (enough : p.layout.numNodes ≤ fuel) (tree recomputedLeaves : Digests p)
    (mtp leavesToReveal : Mem) : Sve2.recomputeRootLoops p shake fuel tree recomputedLeaves mtp leavesToReveal =
      some (Sve2.recomputeRoot p shake tree recomputedLeaves mtp leavesToReveal) := by
  simp only [Sve2.recomputeRootLoops, Sve2.recomputeRoot]
  rw [p.layout.levelsDownRun, p.layout.levelsDownRun, Loop.downFromMap some fun l below s => by
    exact Loop.attemptLoopsRun (Nat.le_trans (levelFits p below) enough) s]
  rfl

theorem treeRootAgrees (tree tree' leaves : Digests p) :
    (Sve2.treeRoot p shake tree leaves).1 = (Portable.treeRoot p shake tree' leaves).1 ∧
      ∀ n < p.layout.numNodes, (Sve2.treeRoot p shake tree leaves).2 n = (Portable.treeRoot p shake tree' leaves).2 n := by
  rw [sve2TreeRoot, portableTreeRoot, portableTreeRoot]
  have whole := wholeTreeAgrees p shake tree tree' leaves
  exact ⟨whole 0 p.layout.tree.nonempty, whole⟩

end Merkle

theorem merkleAgrees (category : Category) (shake : Shake) :
    let p := category.parameters
    (∀ tree leaves : Merkle.Digests p,
      Merkle.Sve2.treeRoot p shake tree leaves = Merkle.Portable.treeRoot p shake tree leaves) ∧
    (∀ tree tree' leaves : Merkle.Digests p,
      (Merkle.Sve2.treeRoot p shake tree leaves).1 = (Merkle.Portable.treeRoot p shake tree' leaves).1 ∧
      ∀ n < 2 * p.t - 1, (Merkle.Sve2.treeRoot p shake tree leaves).2 n =
        (Merkle.Portable.treeRoot p shake tree' leaves).2 n) ∧
    ∀ (tree leaves : Merkle.Digests p) (mtp challenge : Mem) (fuel : Nat), 2 * p.t - 1 ≤ fuel →
      Merkle.Sve2.recomputeRootLoops p shake fuel tree leaves mtp challenge =
        some (Merkle.Portable.recomputeRoot p shake tree leaves mtp challenge) := by
  refine ⟨Merkle.sve2TreeRoot _ shake, Merkle.treeRootAgrees _ shake, fun tree leaves mtp challenge fuel enough => ?_⟩
  rw [Merkle.recomputeRootEnds _ shake enough, Merkle.sve2RecomputeRoot, Merkle.portableRecomputeRoot]

namespace SeedTree

variable (p : Parameters) (shake : Shake)

/-- All of `gen_seed_tree`: every slot of the tree is written once and nothing else, every
child from the final seed of its father under the father's index. -/
structure Filled (rootSeed : Block p.seedLength) (salt : Block p.saltLength)
    (init out : Slots (Block p.seedLength)) : Prop where
  once : ∀ n, out.log.count n = if n < 2 * p.t - 1 then 1 else 0
  root : out.cell 0 = rootSeed
  left : ∀ n < 2 * p.t - 1, n % 2 = 1 → out.cell n =
    (expandNode p shake salt (p.layout.tree.parent n) (out.cell (p.layout.tree.parent n))).fst
  right : ∀ n < 2 * p.t - 1, 0 < n → n % 2 = 0 → out.cell n =
    (expandNode p shake salt (p.layout.tree.parent n) (out.cell (p.layout.tree.parent n))).snd
  outside : ∀ n, 2 * p.t - 1 ≤ n → out.cell n = init.cell n

theorem genSeedTreeFills (cells : Nat → Block p.seedLength) (rootSeed : Block p.seedLength) (salt : Block p.saltLength) :
    Filled p shake rootSeed salt ⟨cells, []⟩ (Portable.genSeedTree p shake ⟨cells, []⟩ rootSeed salt) := by
  have spread := p.layout.tree.spreadRun (children p shake salt) ((⟨cells, []⟩ : Slots (Block p.seedLength)).put 0 rootSeed)
  change p.layout.tree.Spread _ _ _ (Loop.upTo p.layout.numNodes _ _) at spread
  rw [← portableGenSeedTree] at spread
  have positive := p.layout.tree.nonempty
  constructor
  · intro n
    obtain ⟨fresh, log, nodup, members⟩ := spread.written
    have root : ([0] : List Nat).count n = if n = 0 then 1 else 0 := by
      by_cases zero : n = 0
      · simp [zero]
      · rw [if_neg zero, List.count_eq_zero_of_not_mem (by simpa using zero)]
    rw [log, Slots.putLog, List.count_append, root]
    have inside : n ∈ fresh ↔ 0 < n ∧ n < p.layout.tree.size := by
      rw [members]
      exact ⟨fun h => ⟨h.1, h.2.1⟩, fun h => ⟨h.1, h.2, (p.layout.tree.parentInner h.1 h.2).1⟩⟩
    change _ = if n < p.layout.tree.size then 1 else 0
    by_cases member : n ∈ fresh
    · have bounds := inside.mp member
      rw [List.count_eq_one_of_mem nodup member, if_pos bounds.2, if_neg (by omega)]
    · rw [List.count_eq_zero_of_not_mem member]
      rw [inside] at member
      by_cases zero : n = 0
      · rw [if_pos zero, if_pos (by omega)]
      · rw [if_neg zero, if_neg (by omega)]
  · rw [spread.root]
    exact Slots.putCellSame _ _ _
  · intro n below odd
    obtain ⟨bound, isInner⟩ := p.layout.tree.parentInner (show 0 < n by omega) below
    have own := (spread.grown _ bound isInner).1
    rwa [p.layout.tree.oddIsLeft odd below] at own
  · intro n below above even
    obtain ⟨bound, isInner⟩ := p.layout.tree.parentInner above below
    have own := (spread.grown _ bound isInner).2
    rwa [p.layout.tree.evenIsRight even above below] at own
  · intro n beyond
    have size : p.layout.tree.size ≤ n := beyond
    rw [spread.outside n beyond]
    exact Slots.putCellOther _ _ (by omega)

theorem Filled.unique {rootSeed : Block p.seedLength} {salt : Block p.saltLength}
    {init init' out out' : Slots (Block p.seedLength)} (here : Filled p shake rootSeed salt init out)
    (there : Filled p shake rootSeed salt init' out') : ∀ n < 2 * p.t - 1, out.cell n = out'.cell n := by
  refine p.layout.tree.downward (here.root.trans there.root.symm) fun n above below father => ?_
  rcases Nat.mod_two_eq_zero_or_one n with even | odd
  · rw [here.right n below above even, there.right n below above even, father]
  · rw [here.left n below odd, there.left n below odd, father]

end SeedTree

theorem genSeedTreeFilled (category : Category) (shake : Shake) :
    let p := category.parameters
    ∀ (rootSeed : Block p.seedLength) (salt : Block p.saltLength) (cells cells' : Nat → Block p.seedLength),
      let sve2 := SeedTree.Sve2.genSeedTree p shake ⟨cells, []⟩ rootSeed salt
      let portable := SeedTree.Portable.genSeedTree p shake ⟨cells', []⟩ rootSeed salt
      (∀ n < 2 * p.t - 1, sve2.cell n = portable.cell n) ∧
        SeedTree.Filled p shake rootSeed salt ⟨cells, []⟩ sve2 ∧
        SeedTree.Filled p shake rootSeed salt ⟨cells', []⟩ portable := by
  intro p rootSeed salt cells cells' sve2 portable
  have here : SeedTree.Filled p shake rootSeed salt ⟨cells, []⟩ sve2 := by
    rw [show sve2 = SeedTree.Portable.genSeedTree p shake ⟨cells, []⟩ rootSeed salt from
      SeedTree.sve2GenSeedTree p shake _ rootSeed salt]
    exact SeedTree.genSeedTreeFills p shake cells rootSeed salt
  have there := SeedTree.genSeedTreeFills p shake cells' rootSeed salt
  exact ⟨here.unique p shake there, here, there⟩

theorem rebuildTreeSame (category : Category) (shake : Shake) :
    let p := category.parameters
    ∀ (salt : Block p.saltLength) (challenge stored : Mem) (cells : Nat → Block p.seedLength),
      let sve2 := SeedTree.Sve2.rebuildTree p shake ⟨cells, []⟩ challenge stored salt
      let portable := SeedTree.Portable.rebuildTree p shake ⟨cells, []⟩ challenge stored salt
      sve2.restoring.nodes.cell = portable.restoring.nodes.cell ∧ sve2.restoring.used = portable.restoring.used ∧
        sve2.restoring.loads = portable.restoring.loads ∧ sve2.accepted = portable.accepted :=
  fun salt challenge stored cells => SeedTree.sve2RebuildTree _ shake cells challenge stored salt

end Armor.Cross
