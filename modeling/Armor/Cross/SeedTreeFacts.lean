import Armor.Cross.FlagLayouts

/-! What the two versions of `seedtree.c` compute, in terms of the tree of the tables:
both flag computations settle the same conjunction, both expansions spread the same seeds
and both readers restore exactly the marked nodes. -/
namespace Armor.Cross.SeedTree

open TreeLayout

section Flags

variable (t : TreeLayout)

def conjunction : Nat → UInt8 → UInt8 → UInt8 := fun _ a b => if a = toPublish ∧ b = toPublish then 1 else 0

theorem flagPairVisit {l i : Nat} (below : l < t.logT) (even : i % 2 = 0) (width : i < t.npl (l + 1))
    (flags : Mem) :
    flagPair t.flagLayout l i flags = t.tree.combineAt conjunction flags (t.levelStart (l + 1) + i) := by
  have start : t.flagLayout.firstNode (l + 1) = t.levelStart (l + 1) := t.firstNodeStart below
  have parent := t.fatherIndex below width
  have short := pairParent t.flagLayout below width
  rw [start] at short
  rw [flagPair, start, t.siblingRight below even, ← short]
  exact congrArg (fun par => bothPublished _ _ par flags) parent

theorem flagsFold {body : Nat → Nat → Mem → Mem}
    (pairs : ∀ l < t.logT, ∀ flags, body (t.flagLayout.firstNode (l + 1)) (l + 1) flags =
      Loop.downFrom (t.npl (l + 1) / 2) (fun j => flagPair t.flagLayout l (2 * j)) flags) (flags : Mem) :
    levelsDown t.toTreeTables body flags = t.tree.pairsDown.foldl (t.tree.combineAt conjunction) flags := by
  rw [t.downPairs (fun l flags => t.tree.combineAt conjunction flags l), LinTree.pairsDown,
    Loop.downFromFold (t.numNodes / 2) (fun j => 2 * j + 1) (fun l flags => t.tree.combineAt conjunction flags l)]
  · rfl
  · intro l below flags
    have even := t.nplEven below
    have run := pairs l below flags
    rw [show t.flagLayout.firstNode (l + 1) = t.levelStart (l + 1) from t.firstNodeStart below] at run
    exact run.trans (Loop.downFromCongr (fun j width s => flagPairVisit t below (by omega) (by omega) s) flags)

theorem portableFlags (flags indices : Mem) :
    Portable.computeSeedsToPublish t.toTreeTables flags indices =
      t.tree.pairsDown.foldl (t.tree.combineAt conjunction) (labelLeaves t.toTreeTables flags indices) :=
  flagsFold t (fun _ below flags => portableLevel t.flagLayout below flags) _

theorem sve2Flags (flags indices : Mem) :
    Sve2.computeSeedsToPublish t.toTreeTables flags indices =
      t.tree.pairsDown.foldl (t.tree.combineAt conjunction) (labelLeaves t.toTreeTables flags indices) :=
  flagsFold t (fun _ below flags =>
    (sve2Level t.flagLayout below flags).trans (pairsEitherWay t.flagLayout below flags)) _

def seedFlags (indices : Mem) : Mem := Portable.computeSeedsToPublish t.toTreeTables (fun _ => notToPublish) indices

def published (indices : Mem) (n : Nat) : Bool := seedFlags t indices n == toPublish

theorem sve2SeedFlags (indices : Mem) :
    Sve2.computeSeedsToPublish t.toTreeTables (fun _ => notToPublish) indices = seedFlags t indices := by
  rw [seedFlags, sve2Flags, portableFlags]

theorem seedFlagsSettled (indices : Mem) : t.tree.Settled conjunction (seedFlags t indices) := by
  rw [seedFlags, portableFlags]
  exact t.tree.foldSettled conjunction t.tree.pairsDownBottomUp _

theorem seedFlagsLeaf (indices : Mem) {cnt : Nat} (inside : cnt < t.leaves) :
    seedFlags t indices (t.leafNode cnt) = indices cnt := by
  rw [seedFlags, portableFlags, t.tree.foldLeaf conjunction t.tree.pairsDownBottomUp _ _
    (.inl (t.leafNodeInside inside).2)]
  exact (t.leafLoopScatter (fun cnt _ => indices cnt) (fun _ => notToPublish)).1 cnt inside

theorem publishedMarked (indices : Mem) : t.tree.Marked (published t indices) := by
  intro n inside isInner
  simp only [published, seedFlagsSettled t indices n inside isInner, conjunction]
  rw [Bool.eq_iff_iff]
  simp only [Bool.and_eq_true, beq_iff_eq]
  split <;> simp_all [toPublish]

theorem seedFlagsInner (indices : Mem) {n : Nat} (inside : n < t.numNodes) (isInner : t.tree.inner n = true) :
    seedFlags t indices n = notToPublish ↔ published t indices n = false := by
  have settled := seedFlagsSettled t indices n inside isInner
  simp only [published, settled, conjunction]
  split <;> decide

theorem publishedLeaf (indices : Mem) {cnt : Nat} (inside : cnt < t.leaves) :
    published t indices (t.leafNode cnt) = (indices cnt == toPublish) := by
  rw [published, seedFlagsLeaf t indices inside]

theorem publishedFull (indices : Mem) {n : Nat} (inside : n < t.numNodes) :
    published t indices n = true ↔ t.tree.Full (published t indices) n :=
  t.tree.settledFull (publishedMarked t indices) (fun _ _ _ => rfl) n inside

theorem rootHidden {indices : Mem} {cnt : Nat} (inside : cnt < t.leaves) (hidden : indices cnt ≠ toPublish) :
    published t indices 0 = false := by
  have leaf := t.leafNodeInside inside
  cases root : published t indices 0 with
  | false => rfl
  | true =>
    have full := (publishedFull t indices (by omega)).mp root
    have here := full _ leaf.1 leaf.2 (t.tree.ancRoot leaf.1)
    rw [publishedLeaf t indices inside, beq_iff_eq] at here
    exact absurd here hidden

end Flags

section Expand

variable (p : Parameters) (shake : Shake)

def children (salt : Block p.saltLength) (node : Nat) (seed : Block p.seedLength) :
    Block p.seedLength × Block p.seedLength :=
  ((expandNode p shake salt node seed).fst, (expandNode p shake salt node seed).snd)

theorem expandTwoRun (salt : Block p.saltLength) (node1 node2 : Nat) (seed1 seed2 : Block p.seedLength) :
    expandTwo p shake salt node1 node2 seed1 seed2 =
      (some (expandNode p shake salt node1 seed1), some (expandNode p shake salt node2 seed2)) := rfl

theorem expandVisit {l i : Nat} (below : l < p.layout.logT) (isInner : i < p.layout.expandable l)
    (salt : Block p.saltLength) (s : Slots (Block p.seedLength)) :
    storePair (u16 (leftChildIndex (u16 (p.layout.levelStart l + i)) - p.layout.off l))
      (expandNode p shake salt (u16 (p.layout.levelStart l + i))
        (s.cell (u16 (p.layout.levelStart l + i)))) s =
    p.layout.tree.expandAt (children p shake salt) (p.layout.levelStart l + i) s := by
  have next := p.layout.nextLevel (by omega) isInner
  rw [p.layout.u16Node (by omega) next.2.2, p.layout.childIndex below isInner]
  rfl

theorem innerAt {l i : Nat} (le : l ≤ p.layout.logT) (width : i < p.layout.npl l) :
    p.layout.tree.inner (p.layout.levelStart l + i) = decide (i < p.layout.expandable l) :=
  p.layout.innerNode le width

theorem expandTwoVisit {l i : Nat} (below : l < p.layout.logT) (isInner : i + 1 < p.layout.expandable l)
    (salt : Block p.saltLength) (s : Slots (Block p.seedLength)) :
    let node1 := u16 (p.layout.levelStart l + i)
    let node2 := u16 (p.layout.levelStart l + i + 1)
    let out := expandTwo p shake salt node1 node2 (s.cell node1) (s.cell node2)
    storePairIf (u16 (leftChildIndex node2 - p.layout.off l)) out.2
      (storePairIf (u16 (leftChildIndex node1 - p.layout.off l)) out.1 s) =
    p.layout.tree.expandAt (children p shake salt) (p.layout.levelStart l + i + 1)
      (p.layout.tree.expandAt (children p shake salt) (p.layout.levelStart l + i) s) := by
  have next := p.layout.nextLevel (show l ≤ p.layout.logT by omega) isInner
  have first := expandVisit p shake below (show i < p.layout.expandable l by omega) salt s
  have beyond := p.layout.leftNode (show l ≤ p.layout.logT by omega) (show i < p.layout.npl l by omega)
  have step : p.layout.levelStart (l + 1) = p.layout.levelStart l + p.layout.npl l := rfl
  change p.layout.tree.left _ = _ at beyond
  have kept := p.layout.tree.expandAtOther (children p shake salt) (p.layout.levelStart l + i) s
    (m := p.layout.levelStart l + i + 1) (by omega) (by omega)
  have second := expandVisit p shake below isInner salt
    (p.layout.tree.expandAt (children p shake salt) (p.layout.levelStart l + i) s)
  rw [p.layout.u16Node (by omega) next.2.2, ← Nat.add_assoc] at second
  simp only [expandTwoRun, storePairIf, Nat.add_assoc (p.layout.levelStart l) i 1,
    p.layout.u16Node (show l ≤ p.layout.logT by omega) next.2.2]
  rw [first, ← Nat.add_assoc, ← second, kept]

theorem spreadVisit {l i : Nat} (below : l < p.layout.logT) (isInner : i < p.layout.expandable l)
    (salt : Block p.saltLength) (s : Slots (Block p.seedLength)) :
    p.layout.tree.spreadAt (children p shake salt) (p.layout.levelStart l + i) s =
      p.layout.tree.expandAt (children p shake salt) (p.layout.levelStart l + i) s := by
  have next := p.layout.nextLevel (by omega) isInner
  rw [LinTree.spreadAt, innerAt p (by omega) next.2.2, if_pos (by simpa using isInner)]

theorem portableGenSeedTree (seedTree : Slots (Block p.seedLength)) (rootSeed : Block p.seedLength)
    (salt : Block p.saltLength) :
    Portable.genSeedTree p shake seedTree rootSeed salt =
      Loop.upTo p.layout.numNodes (p.layout.tree.spreadAt (children p shake salt)) (seedTree.put 0 rootSeed) := by
  rw [Portable.genSeedTree, p.layout.upFathers (p.layout.tree.spreadAt (children p shake salt))]
  · intro l below s
    exact Loop.upToCongr (fun i isInner s => by
      rw [spreadVisit p shake below isInner]; exact expandVisit p shake below isInner salt s) s
  · intro n s leaf
    rw [LinTree.spreadAt, leaf]
    rfl

theorem sve2GenSeedTree (seedTree : Slots (Block p.seedLength)) (rootSeed : Block p.seedLength)
    (salt : Block p.saltLength) :
    Sve2.genSeedTree p shake seedTree rootSeed salt = Portable.genSeedTree p shake seedTree rootSeed salt := by
  rw [portableGenSeedTree, Sve2.genSeedTree,
    p.layout.upFathers (p.layout.tree.spreadAt (children p shake salt))]
  · intro l below s
    dsimp only
    rw [Loop.pairedRun]
    · exact Loop.upToCongr (fun i isInner s => by
        rw [spreadVisit p shake below isInner]; exact expandVisit p shake below isInner salt s) s
    · intro i room s
      have inner : i + 1 < p.layout.expandable l := by simp only [TreeTables.expandable]; omega
      have first := expandVisit p shake below (show i < p.layout.expandable l by omega) salt s
      rw [expandTwoVisit p shake below inner, first, Nat.add_assoc]
      exact (expandVisit p shake below inner salt _).symm
  · intro n s leaf
    rw [LinTree.spreadAt, leaf]
    rfl

end Expand

section Publish

variable (t : TreeLayout)

theorem topCondition (indices : Mem) {n : Nat} (positive : 0 < n) (inside : n < t.numNodes) :
    seedFlags t indices n = toPublish ∧ seedFlags t indices (t.tree.parent n) = notToPublish ↔
      t.tree.top (published t indices) n = true := by
  obtain ⟨bound, isInner⟩ := t.tree.parentInner positive inside
  rw [seedFlagsInner t indices bound isInner]
  simp [LinTree.top, published]

theorem levelNode {l i : Nat} (below : l < t.logT) (width : i < t.npl (l + 1)) :
    0 < t.levelStart (l + 1) + i ∧ t.levelStart (l + 1) + i < t.numNodes := by
  have := t.startOdd below
  exact ⟨by omega, t.nodeBelow (by omega) width⟩

variable (p : Parameters)

theorem seedPathRun {computeSeedsToPublish : TreeTables → Mem → Mem → Mem} (indices : Mem)
    (agrees : computeSeedsToPublish p.layout.toTreeTables (fun _ => notToPublish) indices =
      seedFlags p.layout indices)
    (storage : Mem) (seedTree : Nat → Block p.seedLength) :
    seedPath p computeSeedsToPublish storage seedTree indices =
      let tops := p.layout.tree.tops (published p.layout indices)
      let s := Mem.appendAll (tops.map seedTree) (storage, 0)
      ⟨s.1, s.2, tops⟩ := by
  rw [seedPath, agrees]
  dsimp only
  rw [p.layout.upNodes (fun n s => if p.layout.tree.top (published p.layout indices) n = true then
    (Mem.append (seedTree n) s.1, s.2 ++ [n]) else s)]
  · rw [p.layout.tree.publishRun (published p.layout indices) seedTree]
    rfl
  · intro l below s
    refine Loop.upToCongr (fun i width s => ?_) s
    have node := levelNode p.layout below width
    have next : l + 1 ≤ p.layout.logT := below
    rw [Nat.add_sub_cancel, p.layout.u16Node next width, p.layout.fatherIndex below width]
    congr 1
    rw [eq_iff_iff]
    exact topCondition p.layout indices node.1 node.2

end Publish

section Rebuild

variable (p : Parameters) (shake : Shake)

def storedSeed (storedSeeds : Mem) (i : Nat) : Block p.seedLength := storedSeeds.slot p.seedLength i

theorem loadVisit (indices storedSeeds : Mem) {l i : Nat} (below : l < p.layout.logT)
    (width : i < p.layout.npl (l + 1)) (s : LinTree.Restoring (Block p.seedLength)) :
    let node := u16 (p.layout.levelStart (l + 1) + i)
    loadSeed p (seedFlags p.layout indices) storedSeeds node
      (u16 (parentIndex node + p.layout.off l / 2)) s =
    p.layout.tree.loadAt (published p.layout indices) (storedSeed p storedSeeds)
      (p.layout.levelStart (l + 1) + i) s := by
  have node := levelNode p.layout below width
  have next : l + 1 ≤ p.layout.logT := below
  dsimp only
  rw [p.layout.u16Node next width, p.layout.fatherIndex below width, loadSeed, LinTree.loadAt]
  congr 1
  rw [eq_iff_iff]
  exact topCondition p.layout indices node.1 node.2

theorem growVisit (indices : Mem) (salt : Block p.saltLength) {l i : Nat} (below : l < p.layout.logT)
    (width : i < p.layout.npl (l + 1)) (s : LinTree.Restoring (Block p.seedLength)) :
    expandPublished p shake (seedFlags p.layout indices) salt (l + 1)
      (u16 (p.layout.levelStart (l + 1) + i)) i s =
    p.layout.tree.growAt (children p shake salt) (published p.layout indices)
      (p.layout.levelStart (l + 1) + i) s := by
  have next : l + 1 ≤ p.layout.logT := below
  have inner := innerAt p next width
  by_cases grows : published p.layout indices (p.layout.levelStart (l + 1) + i) = true ∧
      i < p.layout.expandable (l + 1)
  · have deeper := p.layout.nextLevel next grows.2
    have visit := expandVisit p shake deeper.1 grows.2 salt s.nodes
    rw [p.layout.u16Node next width] at visit ⊢
    have flag : seedFlags p.layout indices (p.layout.levelStart (l + 1) + i) = toPublish := by
      simpa [published] using grows.1
    rw [LinTree.growAt, if_pos ⟨grows.1, by rw [inner]; simpa using grows.2⟩, expandPublished,
      if_pos ⟨flag, grows.2⟩, visit]
  · rw [p.layout.u16Node next width, LinTree.growAt, if_neg (by rw [inner]; simpa using grows),
      expandPublished, if_neg]
    intro both
    exact grows ⟨by simpa [published] using both.1, both.2⟩

theorem growTwoVisit (indices : Mem) (salt : Block p.saltLength) {l i : Nat} (below : l < p.layout.logT)
    (width : i + 1 < p.layout.npl (l + 1)) (s : LinTree.Restoring (Block p.seedLength)) :
    let t := p.layout.toTreeTables
    let flags := seedFlags p.layout indices
    let curr1 := u16 (p.layout.levelStart (l + 1) + i)
    let curr2 := u16 (p.layout.levelStart (l + 1) + i + 1)
    (if (flags curr1 = toPublish ∧ i < t.npl (l + 1) - t.lpl (l + 1)) ∧
        (flags curr2 = toPublish ∧ i + 1 < t.npl (l + 1) - t.lpl (l + 1)) then
      { s with
        nodes := storePairIf (u16 (leftChildIndex curr2 - t.off (l + 1)))
          (expandTwo p shake salt curr1 curr2 (s.nodes.cell curr1) (s.nodes.cell curr2)).2
          (storePairIf (u16 (leftChildIndex curr1 - t.off (l + 1)))
            (expandTwo p shake salt curr1 curr2 (s.nodes.cell curr1) (s.nodes.cell curr2)).1 s.nodes) }
    else
      expandPublished p shake flags salt (l + 1) curr2 (i + 1)
        (expandPublished p shake flags salt (l + 1) curr1 i s)) =
    p.layout.tree.growAt (children p shake salt) (published p.layout indices)
      (p.layout.levelStart (l + 1) + i + 1)
      (p.layout.tree.growAt (children p shake salt) (published p.layout indices)
        (p.layout.levelStart (l + 1) + i) s) := by
  have first := growVisit p shake indices salt below (show i < p.layout.npl (l + 1) by omega)
  have second := growVisit p shake indices salt below width
  have next : l + 1 ≤ p.layout.logT := below
  dsimp only
  split
  · rename_i both
    have deeper := p.layout.nextLevel next (show i < p.layout.expandable (l + 1) from both.1.2)
    have two := expandTwoVisit p shake deeper.1 (show i + 1 < p.layout.expandable (l + 1) from both.2.2)
      salt s.nodes
    have mark1 : published p.layout indices (p.layout.levelStart (l + 1) + i) = true := by
      have := both.1.1
      rw [p.layout.u16Node next (by omega)] at this
      simpa [published] using this
    have mark2 : published p.layout indices (p.layout.levelStart (l + 1) + i + 1) = true := by
      have := both.2.1
      rw [Nat.add_assoc, p.layout.u16Node next width] at this
      simpa [published, Nat.add_assoc] using this
    have inner1 : p.layout.tree.inner (p.layout.levelStart (l + 1) + i) = true := by
      rw [innerAt p next (by omega), decide_eq_true_eq]
      exact both.1.2
    have inner2 : p.layout.tree.inner (p.layout.levelStart (l + 1) + i + 1) = true := by
      rw [Nat.add_assoc, innerAt p next width, decide_eq_true_eq]
      exact both.2.2
    dsimp only at two
    simp only [LinTree.growAt, mark1, mark2, inner1, inner2, and_self, if_true, two]
  · rw [Nat.add_assoc, second, first]

theorem portableRebuildTree (seedTree : Slots (Block p.seedLength)) (indices storedSeeds : Mem)
    (salt : Block p.saltLength) :
    (Portable.rebuildTree p shake seedTree indices storedSeeds salt).restoring =
      p.layout.tree.restore (children p shake salt) (published p.layout indices)
        (storedSeed p storedSeeds) seedTree := by
  simp only [Portable.rebuildTree]
  rw [p.layout.upNodes (p.layout.tree.restoreAt (children p shake salt) (published p.layout indices)
    (storedSeed p storedSeeds))]
  · rfl
  · intro l below s
    refine Loop.upToCongr (fun i width s => ?_) s
    rw [Nat.add_sub_cancel]
    change expandPublished p shake (seedFlags p.layout indices) _ _ _ _
      (loadSeed p (seedFlags p.layout indices) _ _ _ _) = _
    rw [loadVisit p indices storedSeeds below width, growVisit p shake indices salt below width]
    rfl

theorem sve2RebuildRestored (seedTree : Slots (Block p.seedLength)) (indices storedSeeds : Mem)
    (salt : Block p.saltLength) :
    p.layout.tree.Restored (children p shake salt) (published p.layout indices)
      (storedSeed p storedSeeds) seedTree (p.layout.numNodes - 1) (p.layout.numNodes - 1)
      (Sve2.rebuildTree p shake seedTree indices storedSeeds salt).restoring := by
  have marked := publishedMarked p.layout indices
  simp only [Sve2.rebuildTree, sve2SeedFlags]
  refine p.layout.levelsUpInvariant (fun n s => p.layout.tree.Restored (children p shake salt)
    (published p.layout indices) (storedSeed p storedSeeds) seedTree (n - 1) (n - 1) s)
    (p.layout.tree.restoredStart (children p shake salt) (storedSeed p storedSeeds) seedTree) ?_
  intro l below s inv
  have start := p.layout.startOdd below
  refine Loop.pairedInvariant (fun i s => p.layout.tree.Restored (children p shake salt)
    (published p.layout indices) (storedSeed p storedSeeds) seedTree (p.layout.levelStart (l + 1) + i - 1)
    (p.layout.levelStart (l + 1) + i - 1) s) inv ?_ ?_
  · intro i _ room s inv
    obtain ⟨k, index⟩ : ∃ k, p.layout.levelStart (l + 1) + i = k + 1 :=
      ⟨p.layout.levelStart (l + 1) + i - 1, by omega⟩
    have inside := (levelNode p.layout below (show i + 1 < p.layout.npl (l + 1) by omega)).2
    have load1 := loadVisit p indices storedSeeds below (show i < p.layout.npl (l + 1) by omega) s
    have load2 := loadVisit p indices storedSeeds below (show i + 1 < p.layout.npl (l + 1) by omega)
    have grow := growTwoVisit p shake indices salt below (show i + 1 < p.layout.npl (l + 1) by omega)
    dsimp only at load1 load2 grow ⊢
    simp only [← Nat.add_assoc] at load2 inside
    rw [Nat.add_sub_cancel, load1, load2, grow, ← Nat.add_assoc]
    rw [index] at inv inside ⊢
    exact p.layout.tree.growStep _ _ marked inside (p.layout.tree.growStep _ _ marked
      (show k + 1 < p.layout.numNodes by omega) (p.layout.tree.loadStep _ _ (by omega) inside
        (p.layout.tree.loadStep _ _ (Nat.le_refl k) (show k + 1 < p.layout.numNodes by omega) inv)))
  · intro i _ last s inv
    obtain ⟨k, index⟩ : ∃ k, p.layout.levelStart (l + 1) + i = k + 1 :=
      ⟨p.layout.levelStart (l + 1) + i - 1, by omega⟩
    have inside := (levelNode p.layout below (show i < p.layout.npl (l + 1) by omega)).2
    have load := loadVisit p indices storedSeeds below (show i < p.layout.npl (l + 1) by omega) s
    have grow := growVisit p shake indices salt below (show i < p.layout.npl (l + 1) by omega)
    dsimp only at load ⊢
    rw [Nat.add_sub_cancel, load, grow, ← Nat.add_assoc]
    rw [index] at inv inside ⊢
    exact p.layout.tree.restoreStep _ _ marked inside inv

theorem sve2RebuildTree (cells : Nat → Block p.seedLength) (indices storedSeeds : Mem) (salt : Block p.saltLength) :
    let sve2 := Sve2.rebuildTree p shake ⟨cells, []⟩ indices storedSeeds salt
    let portable := Portable.rebuildTree p shake ⟨cells, []⟩ indices storedSeeds salt
    sve2.restoring.nodes.cell = portable.restoring.nodes.cell ∧ sve2.restoring.used = portable.restoring.used ∧
      sve2.restoring.loads = portable.restoring.loads ∧ sve2.accepted = portable.accepted := by
  intro sve2 portable
  have here := sve2RebuildRestored p shake ⟨cells, []⟩ indices storedSeeds salt
  have there := p.layout.tree.restoreRun (children p shake salt) (storedSeed p storedSeeds)
    (publishedMarked p.layout indices) ⟨cells, []⟩
  rw [← portableRebuildTree p shake ⟨cells, []⟩ indices storedSeeds salt] at there
  obtain ⟨same, used, loads, -⟩ := p.layout.tree.restoredUnique _ _ here there rfl
  exact ⟨same, used, loads, congrArg (fun used => paddingClear p storedSeeds used p.seedLength) used⟩

end Rebuild
end Armor.Cross.SeedTree
