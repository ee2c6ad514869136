import Armor.Cross.Merkle
import Armor.Cross.SeedTreeFacts

/-! What the two versions of `merkle.c` compute, in terms of the tree of the tables: both
root computations settle the same hashes, the writer sends the missing node of every mixed
pair, and both readers recompute the same state. -/
namespace Armor.Cross.Merkle

section Pairs

variable (t : TreeLayout)

theorem nextInside {l i : Nat} (below : l < t.logT) (even : i % 2 = 0) (width : i < t.npl (l + 1)) :
    i + 1 < t.npl (l + 1) := by
  have := t.nplEven below
  omega

theorem siblingNode {l i : Nat} (below : l < t.logT) (even : i % 2 = 0) (width : i < t.npl (l + 1)) :
    siblingIndex (u16 (t.levelStart (l + 1) + i)) = t.levelStart (l + 1) + i + 1 := by
  have next : l + 1 ≤ t.logT := below
  rw [t.u16Node next width, t.siblingRight below even]

theorem siblingWord {l i : Nat} (below : l < t.logT) (even : i % 2 = 0) (width : i < t.npl (l + 1)) :
    u16 (siblingIndex (u16 (t.levelStart (l + 1) + i))) = t.levelStart (l + 1) + i + 1 := by
  have next : l + 1 ≤ t.logT := below
  rw [siblingNode t below even width, Nat.add_assoc, t.u16Node next (nextInside t below even width)]

theorem fatherNode {l i : Nat} (below : l < t.logT) (width : i < t.npl (l + 1)) :
    u16 (parentIndex (u16 (t.levelStart (l + 1) + i)) + t.off l / 2) =
      t.tree.parent (t.levelStart (l + 1) + i) := by
  have next : l + 1 ≤ t.logT := below
  rw [t.u16Node next width, t.fatherIndex below width]

theorem fatherBefore {l i : Nat} (below : l < t.logT) (width : i < t.npl (l + 1)) :
    t.tree.parent (t.levelStart (l + 1) + i) < t.levelStart (l + 1) := by
  have up : t.tree.parent (t.levelStart (l + 1) + i) = t.levelStart l + i / 2 := t.parentNode below width
  have wide := t.widths l below
  have step : t.levelStart (l + 1) = t.levelStart l + t.npl l := rfl
  omega

end Pairs

section Labels

variable (t : TreeLayout)

def encodeFlags (flags : Nat → Bool) : Mem := fun n => if flags n = true then computed else notComputed

theorem encodeComputed (flags : Nat → Bool) (n : Nat) : encodeFlags flags n = computed ↔ flags n = true := by
  simp only [encodeFlags]
  split <;> simp_all [computed, notComputed]

theorem encodeNotComputed (flags : Nat → Bool) (n : Nat) :
    encodeFlags flags n = notComputed ↔ flags n = false := by
  simp only [encodeFlags]
  split <;> simp_all [computed, notComputed]

theorem encodeUpdate (flags : Nat → Bool) (n : Nat) (b : Bool) :
    encodeFlags (Function.update flags n b) =
      Function.update (encodeFlags flags) n (if b = true then computed else notComputed) := by
  funext m
  by_cases here : m = n
  · subst here; simp [encodeFlags]
  · simp [encodeFlags, here]

def labels (challenge : Mem) (n : Nat) : Bool :=
  labelLeaves t.toTreeTables (fun _ => notComputed) challenge n == computed

theorem labelLeavesAt (challenge : Mem) :
    (∀ cnt < t.leaves, labelLeaves t.toTreeTables (fun _ => notComputed) challenge (t.leafNode cnt) =
      if challenge cnt = challengeProofValue then computed else notComputed) ∧
    ∀ n, (n < t.numNodes → t.tree.inner n = true) →
      labelLeaves t.toTreeTables (fun _ => notComputed) challenge n = notComputed := by
  have same : labelLeaves t.toTreeTables (fun _ => notComputed) challenge =
      leafLoop t.toTreeTables (fun node cnt flags => Function.update flags node
        (if challenge cnt = challengeProofValue then computed else flags node)) (fun _ => notComputed) := by
    rw [labelLeaves]
    congr 1
    funext node cnt flags
    split
    · rfl
    · rw [Function.update_eq_self]
  rw [same]
  exact t.leafLoopScatter (fun cnt flag => if challenge cnt = challengeProofValue then computed else flag)
    (fun _ => notComputed)

theorem labelLeavesEncoded (challenge : Mem) :
    labelLeaves t.toTreeTables (fun _ => notComputed) challenge = encodeFlags (labels t challenge) := by
  obtain ⟨leaf, other⟩ := labelLeavesAt t challenge
  funext n
  have values : labelLeaves t.toTreeTables (fun _ => notComputed) challenge n = computed ∨
      labelLeaves t.toTreeTables (fun _ => notComputed) challenge n = notComputed := by
    by_cases isLeaf : n < t.numNodes ∧ t.tree.inner n = false
    · obtain ⟨cnt, inside, rfl⟩ := t.leafNodeSurjective isLeaf.1 isLeaf.2
      rw [leaf cnt inside]
      split
      · exact .inl rfl
      · exact .inr rfl
    · exact .inr (other n fun inside => by simpa [inside] using isLeaf)
  have flag : labels t challenge n = (labelLeaves t.toTreeTables (fun _ => notComputed) challenge n == computed) :=
    rfl
  rw [encodeFlags, flag]
  rcases values with h | h <;> simp only [h] <;> rfl

theorem labelsLeaf (challenge : Mem) {cnt : Nat} (inside : cnt < t.leaves) :
    labels t challenge (t.leafNode cnt) = (challenge cnt == challengeProofValue) := by
  rw [labels, (labelLeavesAt t challenge).1 cnt inside]
  by_cases h : challenge cnt = challengeProofValue
  · rw [if_pos h, h]; rfl
  · rw [if_neg h, beq_eq_false_iff_ne.mpr h]; rfl

theorem labelsInner (challenge : Mem) {n : Nat} (inner : n < t.numNodes → t.tree.inner n = true) :
    labels t challenge n = false := by
  rw [labels, (labelLeavesAt t challenge).2 n inner]
  rfl

def known (challenge : Mem) : Nat → Bool :=
  t.tree.pairsDown.foldl (t.tree.combineAt fun _ a b => a || b) (labels t challenge)

theorem knownSettled (challenge : Mem) : t.tree.Known (known t challenge) :=
  t.tree.foldSettled _ t.tree.pairsDownBottomUp _

theorem knownLabels (challenge : Mem) {n : Nat} (leaf : t.tree.inner n = false) :
    known t challenge n = labels t challenge n :=
  t.tree.foldLeaf _ t.tree.pairsDownBottomUp _ n (.inl leaf)

theorem knownLeaf (challenge : Mem) {cnt : Nat} (inside : cnt < t.leaves) :
    known t challenge (t.leafNode cnt) = (challenge cnt == challengeProofValue) := by
  rw [knownLabels t challenge (t.leafNodeInside inside).2, labelsLeaf t challenge inside]

theorem knownOpposite {challenge : Mem} (binary : ∀ i < t.leaves, challenge i = 0 ∨ challenge i = 1) :
    ∀ n < t.numNodes, known t challenge n = !SeedTree.published t challenge n := by
  refine t.tree.upward (fun n inside leaf => ?_) fun n inside isInner left right => ?_
  · obtain ⟨cnt, bound, rfl⟩ := t.leafNodeSurjective inside leaf
    rw [knownLeaf t challenge bound, SeedTree.publishedLeaf t challenge bound]
    rcases binary cnt bound with h | h <;> rw [h] <;> decide
  · rw [knownSettled t challenge n inside isInner, SeedTree.publishedMarked t challenge n inside isInner,
      left, right, Bool.not_and]

theorem rootKnown {challenge : Mem} {cnt : Nat} (inside : cnt < t.leaves) (zero : challenge cnt = 0) :
    known t challenge 0 = true := by
  have leaf := t.leafNodeInside inside
  have up : ∀ n < t.numNodes, known t challenge n = true → known t challenge 0 = true := by
    refine t.tree.downward (fun h => h) fun n positive bound ih h => ih ?_
    obtain ⟨inP, isInner⟩ := t.tree.parentInner positive bound
    have settled := knownSettled t challenge _ inP isInner
    rcases t.tree.childOf positive bound with side | side <;> rw [← side, h] at settled
    · simpa using settled
    · simpa using settled
  refine up _ leaf.1 ?_
  rw [knownLeaf t challenge inside, zero]
  rfl

end Labels

section Root

variable (p : Parameters) (shake : Shake)

def digestOf : Nat → Block p.hashLength → Block p.hashLength → Block p.hashLength :=
  fun _ left right => hashNodes p shake left right

def wholeTree (tree leaves : Digests p) : Digests p :=
  p.layout.tree.pairsDown.foldl (p.layout.tree.combineAt (digestOf p shake)) (placeCmtOnLeaves p tree leaves)

theorem wholeTreeSettled (tree leaves : Digests p) :
    p.layout.tree.Settled (digestOf p shake) (wholeTree p shake tree leaves) :=
  p.layout.tree.foldSettled _ p.layout.tree.pairsDownBottomUp _

theorem wholeTreeLeaf (tree leaves : Digests p) {cnt : Nat} (inside : cnt < p.layout.leaves) :
    wholeTree p shake tree leaves (p.layout.leafNode cnt) = leaves cnt := by
  rw [wholeTree, p.layout.tree.foldLeaf _ p.layout.tree.pairsDownBottomUp _ _
    (.inl (p.layout.leafNodeInside inside).2)]
  exact (p.layout.leafLoopScatter (fun cnt _ => leaves cnt) tree).1 cnt inside

def rootStep (start adj i : Nat) (tree : Digests p) : Digests p :=
  Function.update tree (u16 (parentIndex (u16 (start + i)) + adj))
    (hashNodes p shake (tree (u16 (start + i))) (tree (u16 (start + i) + 1)))

theorem rootVisit {l i : Nat} (below : l < p.layout.logT) (width : i < p.layout.npl (l + 1))
    (tree : Digests p) :
    rootStep p shake (p.layout.levelStart (l + 1)) (p.layout.off l / 2) i tree =
      p.layout.tree.combineAt (digestOf p shake) tree (p.layout.levelStart (l + 1) + i) := by
  have next : l + 1 ≤ p.layout.logT := below
  rw [rootStep, fatherNode p.layout below width, p.layout.u16Node next width]
  rfl

theorem rootLevel {l : Nat} (below : l < p.layout.logT) (tree : Digests p) :
    Loop.downByTwo (p.layout.npl (l + 1))
      (rootStep p shake (p.layout.levelStart (l + 1)) (p.layout.off l / 2)) tree =
    Loop.downFrom (p.layout.npl (l + 1) / 2) (fun j tree =>
      p.layout.tree.combineAt (digestOf p shake) tree (p.layout.levelStart (l + 1) + 2 * j)) tree := by
  rw [Loop.downByTwoEven (p.layout.nplEven below)]
  exact Loop.downFromCongr (fun j width tree => rootVisit p shake below (by omega) tree) tree

theorem wholeTreeLoop (tree leaves : Digests p) :
    wholeTree p shake tree leaves = Loop.downFrom (p.layout.numNodes / 2)
      (fun j tree => p.layout.tree.combineAt (digestOf p shake) tree (2 * j + 1))
      (placeCmtOnLeaves p tree leaves) := by
  rw [wholeTree, LinTree.pairsDown, Loop.downFromFold (p.layout.numNodes / 2) (fun j => 2 * j + 1)
    (fun l tree => p.layout.tree.combineAt (digestOf p shake) tree l)]
  rfl

theorem portableTreeRoot (tree leaves : Digests p) :
    Portable.treeRoot p shake tree leaves =
      (wholeTree p shake tree leaves 0, wholeTree p shake tree leaves) := by
  have same : levelsDown p.layout.toTreeTables (fun startNode level tree =>
      Loop.downByTwo (p.layout.npl level)
        (rootStep p shake startNode (p.layout.off (level - 1) / 2)) tree) (placeCmtOnLeaves p tree leaves) =
      wholeTree p shake tree leaves := by
    rw [wholeTreeLoop, p.layout.downPairs
      (fun l tree => p.layout.tree.combineAt (digestOf p shake) tree l)]
    exact fun l below s => rootLevel p shake below s
  simp only [Portable.treeRoot]
  rw [← same]
  rfl

theorem sve2TreeRoot (tree leaves : Digests p) :
    Sve2.treeRoot p shake tree leaves = Portable.treeRoot p shake tree leaves := by
  rw [portableTreeRoot]
  simp only [Sve2.treeRoot]
  rw [p.layout.downPairs (fun l tree => p.layout.tree.combineAt (digestOf p shake) tree l),
    ← wholeTreeLoop]
  intro l below s
  rw [← rootLevel p shake below, Loop.pairedDownRun _ (p.layout.nplEven below)]
  · rfl
  intro i even room s
  have next : l + 1 ≤ p.layout.logT := below
  have width1 : i + 2 < p.layout.npl (l + 1) := by omega
  have width2 : i < p.layout.npl (l + 1) := by omega
  have father := fatherBefore p.layout below width1
  simp only [Nat.add_sub_cancel, hashParTwo, storeIf, p.layout.u16Node next width1,
    p.layout.u16Node next width2, p.layout.fatherIndex below width1, p.layout.fatherIndex below width2]
  rw [Function.update_of_ne (by omega), Function.update_of_ne (by omega)]
  rfl

end Root

section Proof

variable (p : Parameters)

def encodeProof (s : (Nat → Bool) × (Mem × Nat) × List Nat) : Mem × (Mem × Nat) × List Nat :=
  (encodeFlags s.1, s.2)

theorem proofVisit {l i : Nat} (below : l < p.layout.logT) (even : i % 2 = 0)
    (width : i < p.layout.npl (l + 1)) (tree : Digests p)
    (s : (Nat → Bool) × (Mem × Nat) × List Nat) :
    publishSibling p tree (u16 (p.layout.levelStart (l + 1) + i))
      (u16 (parentIndex (u16 (p.layout.levelStart (l + 1) + i)) + p.layout.off l / 2)) (encodeProof s) =
    encodeProof (p.layout.tree.proofAt tree (p.layout.levelStart (l + 1) + i) s) := by
  have next : l + 1 ≤ p.layout.logT := below
  have father : p.layout.tree.parent (p.layout.levelStart (l + 1) + i) < p.layout.levelStart (l + 1) + i :=
    Nat.lt_of_lt_of_le (fatherBefore p.layout below width) (Nat.le_add_right _ _)
  rw [fatherNode p.layout below width, p.layout.u16Node next width]
  have sibling := p.layout.siblingRight below even
  generalize p.layout.levelStart (l + 1) + i = n at *
  have cell : ∀ (b : UInt8) m, n ≤ m →
      Function.update (encodeFlags s.1) (p.layout.tree.parent n) b m = encodeFlags s.1 m :=
    fun b m above => Function.update_of_ne (by omega) _ _
  simp only [publishSibling, encodeProof, sibling, cell _ n (Nat.le_refl n), cell _ (n + 1) (Nat.le_succ n),
    encodeComputed, encodeNotComputed, LinTree.proofAt, encodeUpdate, Bool.or_eq_true]
  rw [Prod.mk.injEq]
  refine ⟨rfl, ?_⟩
  rcases Bool.eq_false_or_eq_true (s.1 n) with left | left <;>
    rcases Bool.eq_false_or_eq_true (s.1 (n + 1)) with right | right <;>
    simp [LinTree.mixed, LinTree.missing, left, right]

theorem treeProofRun (mtp : Mem) (tree : Digests p) (challenge : Mem) :
    treeProof p mtp tree challenge =
      let nodes := (p.layout.tree.sent (known p.layout challenge)).map
        (LinTree.missing (known p.layout challenge))
      let s := Mem.appendAll (nodes.map tree) (mtp, 0)
      ⟨s.1, s.2, nodes⟩ := by
  have leaves : ∀ n < p.layout.tree.size, p.layout.tree.inner n = false →
      labels p.layout challenge n = known p.layout challenge n :=
    fun n _ leaf => (knownLabels p.layout challenge leaf).symm
  have run := p.layout.tree.proofRun tree (knownSettled p.layout challenge) leaves (mtp, 0)
  simp only [treeProof, labelLeavesEncoded]
  let finish := fun s : (Mem × Nat) × List Nat => TreeProof.mk s.1.1 s.1.2 s.2
  change finish (levelsDown p.layout.toTreeTables _
    (encodeProof (labels p.layout challenge, (mtp, 0), []))).2 = _
  rw [p.layout.downPairsMap (p.layout.tree.proofAt tree) encodeProof]
  · exact congrArg finish run
  · intro l below s
    rw [Loop.downByTwoEven (p.layout.nplEven below)]
    exact Loop.downFromMap encodeProof (fun j width s =>
      proofVisit p below (by omega) (by omega) tree s) s

end Proof

section Recomputing

variable (p : Parameters) (shake : Shake)

def proofNode (mtp : Mem) (i : Nat) : Block p.hashLength := mtp.slot p.hashLength i

def encodeState (s : LinTree.Recomputing (Block p.hashLength)) : Recompute p :=
  ⟨s.value, encodeFlags s.flags, s.used, s.calls⟩

theorem takeEncoded (mtp : Mem) (n : Nat) (s : LinTree.Recomputing (Block p.hashLength)) :
    takeNode p mtp n (encodeState p s) =
      ((LinTree.takeHalf (proofNode p mtp) n s).1,
        encodeState p (LinTree.takeHalf (proofNode p mtp) n s).2) := by
  cases flag : s.flags n with
  | true =>
    have here : (encodeState p s).flagTree n = computed := (encodeComputed s.flags n).mpr flag
    rw [takeNode, if_pos here, LinTree.takeHalf, if_pos flag]
    rfl
  | false =>
    have here : ¬ (encodeState p s).flagTree n = computed := fun h => by
      have := (encodeComputed s.flags n).mp h
      rw [flag] at this
      contradiction
    rw [takeNode, if_neg here, LinTree.takeHalf, if_neg (by simp [flag])]
    rfl

theorem storeEncoded (parent : Nat) (left right : LinTree.Half (Block p.hashLength))
    (s : LinTree.Recomputing (Block p.hashLength)) :
    storeDigest p parent left right (some (hashNodes p shake left.value right.value)) (encodeState p s) =
      encodeState p (LinTree.hashInto (digestOf p shake) parent left right s) := by
  simp only [storeDigest, storeIf, encodeState, LinTree.hashInto, encodeUpdate, if_true]
  rfl

theorem neededEncoded {n : Nat} (sibling : siblingIndex n = n + 1)
    (s : LinTree.Recomputing (Block p.hashLength)) :
    needed p n (encodeState p s) = (s.flags n || s.flags (n + 1)) := by
  rw [Bool.eq_iff_iff, Bool.or_eq_true, needed, decide_eq_true_eq, sibling]
  exact or_congr (encodeComputed s.flags n) (encodeComputed s.flags (n + 1))

theorem skipEncoded (n : Nat) (s : LinTree.Recomputing (Block p.hashLength)) (next : Recompute p) :
    (if (encodeState p s).flagTree n = notComputed ∧
        (encodeState p s).flagTree (siblingIndex n) = notComputed then encodeState p s else next) =
      if needed p n (encodeState p s) = true then next else encodeState p s := by
  have left := encodeComputed s.flags n
  have right := encodeComputed s.flags (siblingIndex n)
  have left' := encodeNotComputed s.flags n
  have right' := encodeNotComputed s.flags (siblingIndex n)
  simp only [encodeState, needed, left, right, left', right', decide_eq_true_eq]
  rcases Bool.eq_false_or_eq_true (s.flags n) with h | h <;>
    rcases Bool.eq_false_or_eq_true (s.flags (siblingIndex n)) with h' | h' <;> simp [h, h']

theorem pairEncoded (mtp : Mem) {n : Nat} (sibling : siblingIndex n = n + 1)
    (s : LinTree.Recomputing (Block p.hashLength)) :
    (if needed p n (encodeState p s) = true then
        hashPairInto p shake mtp n (p.layout.tree.parent n) (encodeState p s)
      else encodeState p s) =
    encodeState p (p.layout.tree.recomputeAt (digestOf p shake) (proofNode p mtp) n s) := by
  rw [neededEncoded p sibling, LinTree.recomputeAt]
  split
  · rw [hashPairInto, takeEncoded, sibling, takeEncoded, storeEncoded]
  · rfl

theorem recomputeVisit (mtp : Mem) {l i : Nat} (below : l < p.layout.logT) (even : i % 2 = 0)
    (width : i < p.layout.npl (l + 1)) (s : LinTree.Recomputing (Block p.hashLength)) :
    (if needed p (u16 (p.layout.levelStart (l + 1) + i)) (encodeState p s) = true then
        hashPairInto p shake mtp (u16 (p.layout.levelStart (l + 1) + i))
          (u16 (parentIndex (u16 (p.layout.levelStart (l + 1) + i)) + p.layout.off l / 2)) (encodeState p s)
      else encodeState p s) =
    encodeState p (p.layout.tree.recomputeAt (digestOf p shake) (proofNode p mtp)
      (p.layout.levelStart (l + 1) + i) s) := by
  have next : l + 1 ≤ p.layout.logT := below
  rw [fatherNode p.layout below width, p.layout.u16Node next width]
  exact pairEncoded p shake mtp (p.layout.siblingRight below even) s

def initialState (tree recomputedLeaves : Digests p) (challenge : Mem) :
    LinTree.Recomputing (Block p.hashLength) :=
  ⟨placeCmtOnLeaves p tree recomputedLeaves, labels p.layout challenge, 0, []⟩

def recomputed (tree recomputedLeaves : Digests p) (mtp challenge : Mem) :
    LinTree.Recomputing (Block p.hashLength) :=
  p.layout.tree.recompute (digestOf p shake) (proofNode p mtp) (initialState p tree recomputedLeaves challenge)

def finish (mtp : Mem) (s : Recompute p) : RecomputedRoot p :=
  ⟨s.tree 0, SeedTree.paddingClear p mtp s.published p.hashLength, s⟩

theorem portableRecomputeRoot (tree recomputedLeaves : Digests p) (mtp challenge : Mem) :
    Portable.recomputeRoot p shake tree recomputedLeaves mtp challenge =
      finish p mtp (encodeState p (recomputed p shake tree recomputedLeaves mtp challenge)) := by
  simp only [Portable.recomputeRoot, labelLeavesEncoded]
  change finish p mtp (levelsDown p.layout.toTreeTables _
    (encodeState p (initialState p tree recomputedLeaves challenge))) = _
  rw [p.layout.downPairsMap (p.layout.tree.recomputeAt (digestOf p shake) (proofNode p mtp)) (encodeState p)]
  · rfl
  · intro l below s
    rw [Loop.downByTwoEven (p.layout.nplEven below)]
    refine Loop.downFromMap (encodeState p) (fun j width s => ?_) s
    rw [← recomputeVisit p shake mtp below (by omega) (by omega)]
    exact skipEncoded p _ s _

theorem takeStored (mtp : Mem) {target parent : Nat} (other : target ≠ parent)
    (left right : LinTree.Half (Block p.hashLength)) (digest : Block p.hashLength) (s : Recompute p) :
    takeNode p mtp target (storeDigest p parent left right (some digest) s) =
      ((takeNode p mtp target s).1,
        storeDigest p parent left right (some digest) (takeNode p mtp target s).2) := by
  have flag : (storeDigest p parent left right (some digest) s).flagTree target = s.flagTree target :=
    Function.update_of_ne other _ _
  have value : (storeDigest p parent left right (some digest) s).tree target = s.tree target :=
    Function.update_of_ne other _ _
  simp only [takeNode, flag, value]
  split <;> rfl

theorem takeFlags (mtp : Mem) (target : Nat) (s : Recompute p) :
    (takeNode p mtp target s).2.flagTree = s.flagTree := by
  simp only [takeNode]
  split <;> rfl

theorem twoPairs (mtp : Mem) {l i : Nat} (below : l < p.layout.logT) (even : i % 2 = 0)
    (width : i + 2 < p.layout.npl (l + 1)) (s : Recompute p)
    (ready : (needed p (u16 (p.layout.levelStart (l + 1) + (i + 2))) s &&
      needed p (u16 (p.layout.levelStart (l + 1) + i)) s) = true) :
    let node1 := u16 (p.layout.levelStart (l + 1) + (i + 2))
    let node2 := u16 (p.layout.levelStart (l + 1) + i)
    let parent1 := u16 (parentIndex node1 + p.layout.off l / 2)
    let parent2 := u16 (parentIndex node2 + p.layout.off l / 2)
    let left1 := takeNode p mtp node1 s
    let right1 := takeNode p mtp (u16 (siblingIndex node1)) left1.2
    let left2 := takeNode p mtp node2 right1.2
    let right2 := takeNode p mtp (u16 (siblingIndex node2)) left2.2
    let digests := hashPar p shake 2 (left1.1.value.toList ++ right1.1.value.toList)
      (left2.1.value.toList ++ right2.1.value.toList) hashDomainSepConst hashDomainSepConst
    let single := fun node parent s => if needed p node s then hashPairInto p shake mtp node parent s else s
    storeDigest p parent2 left2.1 right2.1 digests.2
        (storeDigest p parent1 left1.1 right1.1 digests.1 right2.2) =
      single node2 parent2 (single node1 parent1 s) := by
  have width2 : i < p.layout.npl (l + 1) := by omega
  have even1 : (i + 2) % 2 = 0 := by omega
  have next : l + 1 ≤ p.layout.logT := below
  have father := fatherBefore p.layout below width
  obtain ⟨need1, need2⟩ := Bool.and_eq_true_iff.mp ready
  dsimp only
  rw [siblingWord p.layout below even1 width, siblingWord p.layout below even width2,
    fatherNode p.layout below width, fatherNode p.layout below width2]
  rw [p.layout.u16Node next width] at need1 ⊢
  rw [p.layout.u16Node next width2] at need2 ⊢
  have sibling1 := p.layout.siblingRight below even1
  have sibling2 := p.layout.siblingRight below even
  generalize p.layout.tree.parent (p.layout.levelStart (l + 1) + (i + 2)) = parent1 at *
  generalize p.layout.tree.parent (p.layout.levelStart (l + 1) + i) = parent2 at *
  simp only [if_pos need1, hashPairInto, sibling1, hashParTwo]
  have other1 : p.layout.levelStart (l + 1) + i ≠ parent1 := by omega
  have other2 : p.layout.levelStart (l + 1) + i + 1 ≠ parent1 := by omega
  have still : needed p (p.layout.levelStart (l + 1) + i) (storeDigest p parent1
      (takeNode p mtp (p.layout.levelStart (l + 1) + (i + 2)) s).1
      (takeNode p mtp (p.layout.levelStart (l + 1) + (i + 2) + 1)
        (takeNode p mtp (p.layout.levelStart (l + 1) + (i + 2)) s).2).1
      (some (hashNodes p shake (takeNode p mtp (p.layout.levelStart (l + 1) + (i + 2)) s).1.value
        (takeNode p mtp (p.layout.levelStart (l + 1) + (i + 2) + 1)
          (takeNode p mtp (p.layout.levelStart (l + 1) + (i + 2)) s).2).1.value))
      (takeNode p mtp (p.layout.levelStart (l + 1) + (i + 2) + 1)
        (takeNode p mtp (p.layout.levelStart (l + 1) + (i + 2)) s).2).2) = true := by
    simp only [needed, storeDigest, sibling2, Function.update_of_ne other1, Function.update_of_ne other2,
      takeFlags] at need2 ⊢
    exact need2
  rw [if_pos still]
  simp only [sibling2, takeStored p mtp other1, takeStored p mtp other2]
  rfl

theorem sve2RecomputeRoot (tree recomputedLeaves : Digests p) (mtp challenge : Mem) :
    Sve2.recomputeRoot p shake tree recomputedLeaves mtp challenge =
      finish p mtp (encodeState p (recomputed p shake tree recomputedLeaves mtp challenge)) := by
  simp only [Sve2.recomputeRoot, labelLeavesEncoded]
  change finish p mtp (levelsDown p.layout.toTreeTables _
    (encodeState p (initialState p tree recomputedLeaves challenge))) = _
  rw [p.layout.downPairsMap (p.layout.tree.recomputeAt (digestOf p shake) (proofNode p mtp)) (encodeState p)]
  · rfl
  · intro l below s
    rw [Loop.attemptDownRun _ (p.layout.nplEven below), Loop.downByTwoEven (p.layout.nplEven below)]
    · exact Loop.downFromMap (encodeState p) (fun j width s =>
        recomputeVisit p shake mtp below (by omega) (by omega) s) s
    · intro i even room s ready
      exact twoPairs p shake mtp below even (by omega) s ready

end Recomputing
end Armor.Cross.Merkle
