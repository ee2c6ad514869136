import Armor.Cross.MerkleFacts

/-! What the signer and the verifier rely on: paths and proofs round-trip, hide what they
must, fit their buffers and have one valid encoding each. -/
namespace Armor.Cross

structure Challenge (p : Parameters) where
  rounds : Vector UInt8 p.t
  binary : ∀ i, (h : i < p.t) → rounds[i] = 0 ∨ rounds[i] = 1

namespace Challenge

variable {p : Parameters} (c : Challenge p)

def array : Mem := fun i => if h : i < p.t then c.rounds[i] else 0

def weight : Nat := ((Finset.range p.t).filter fun i => c.array i = 1).card

theorem arrayBinary : ∀ i < p.t, c.array i = 0 ∨ c.array i = 1 := by
  intro i h
  rw [array, dif_pos h]
  exact c.binary i h

theorem zeros : ((Finset.range p.t).filter fun i => c.array i = 0).card = p.t - c.weight := by
  have split := Finset.card_filter_add_card_filter_not (s := Finset.range p.t) fun i => c.array i = 1
  have same : ((Finset.range p.t).filter fun i => ¬ c.array i = 1) =
      (Finset.range p.t).filter fun i => c.array i = 0 := by
    refine Finset.filter_congr fun i member => ?_
    rcases c.arrayBinary i (Finset.mem_range.mp member) with h | h <;> rw [h] <;> decide
  rw [same, Finset.card_range] at split
  rw [weight]
  omega

theorem someZero (light : c.weight < p.t) : ∃ cnt < p.t, c.array cnt = 0 := by
  have positive : 0 < ((Finset.range p.t).filter fun i => c.array i = 0).card := by
    rw [c.zeros]; omega
  obtain ⟨cnt, member⟩ := Finset.card_pos.mp positive
  rw [Finset.mem_filter, Finset.mem_range] at member
  exact ⟨cnt, member⟩

def initial (p : Parameters) : Challenge p where
  rounds := Vector.ofFn fun i => if i.val < p.w then 1 else 0
  binary i h := by
    rw [Vector.getElem_ofFn]
    split
    · exact .inr rfl
    · exact .inl rfl

theorem initialAt {i : Nat} (h : i < p.t) : (initial p).array i = if i < p.w then 1 else 0 := by
  rw [array, dif_pos h, initial, Vector.getElem_ofFn]

theorem initialWeight (p : Parameters) : (initial p).weight = p.w := by
  have same : ((Finset.range p.t).filter fun i => (initial p).array i = 1) = Finset.range p.w := by
    ext i
    rw [Finset.mem_filter, Finset.mem_range, Finset.mem_range]
    constructor
    · rintro ⟨inside, one⟩
      rw [initialAt inside] at one
      by_contra beyond
      rw [if_neg beyond] at one
      exact absurd one (by decide)
    · intro low
      have inside : i < p.t := Nat.lt_trans low p.weightBelow
      exact ⟨inside, by rw [initialAt inside, if_pos low]⟩
  rw [weight, same, Finset.card_range]

theorem initialZero (p : Parameters) : ∃ cnt < p.t, (initial p).array cnt = 0 :=
  (initial p).someZero (by rw [initialWeight]; exact p.weightBelow)

def AllOnes (n : Nat) : Prop := ∀ cnt < p.t, p.layout.tree.Anc n (p.layout.leafNode cnt) → c.array cnt = 1

end Challenge

section General

variable (p : Parameters) (shake : Shake) (c : Challenge p)

theorem publishedAllOnes {n : Nat} (inside : n < p.layout.numNodes) :
    SeedTree.published p.layout c.array n = true ↔ c.AllOnes n := by
  rw [SeedTree.publishedFull p.layout c.array inside]
  constructor
  · intro full cnt bound above
    have leaf := p.layout.leafNodeInside bound
    have here := full _ leaf.1 leaf.2 above
    rwa [SeedTree.publishedLeaf p.layout c.array bound, beq_iff_eq] at here
  · intro ones m bound leaf above
    obtain ⟨cnt, small, rfl⟩ := p.layout.leafNodeSurjective bound leaf
    rw [SeedTree.publishedLeaf p.layout c.array small, beq_iff_eq]
    exact ones cnt small above

theorem paddingErrorZero (buffer : Mem) (lo hi : Nat) :
    SeedTree.paddingError buffer lo hi = 0 ↔ ∀ a, lo ≤ a → a < hi → buffer a = 0 := by
  have run : ∀ n, Loop.upTo n (fun i error => error ||| buffer (lo + i)) (0 : UInt8) = 0 ↔
      ∀ i < n, buffer (lo + i) = 0 := by
    intro n
    induction n with
    | zero => simp
    | succ n ih =>
      rw [Loop.upToSucc, UInt8.or_eq_zero_iff, ih]
      constructor
      · rintro ⟨before, here⟩ i below
        rcases Nat.lt_succ_iff_lt_or_eq.mp below with lower | rfl
        · exact before i lower
        · exact here
      · exact fun all => ⟨fun i below => all i (by omega), all n (by omega)⟩
  rw [SeedTree.paddingError, run]
  constructor
  · intro all a low high
    have := all (a - lo) (by omega)
    rwa [show lo + (a - lo) = a by omega] at this
  · exact fun all i below => all _ (by omega) (by omega)

theorem paddingClearIff (buffer : Mem) (used len : Nat) :
    SeedTree.paddingClear p buffer used len = true ↔
      ∀ a, used * len ≤ a → a < p.treeNodesToStore * len → buffer a = 0 := by
  rw [SeedTree.paddingClear, beq_iff_eq, paddingErrorZero]

theorem knownLeavesCard :
    (p.layout.tree.leaves.filter fun n => Merkle.known p.layout c.array n = true).card = p.t - c.weight := by
  have image : (p.layout.tree.leaves.filter fun n => Merkle.known p.layout c.array n = true) =
      ((Finset.range p.t).filter fun i => c.array i = 0).image p.layout.leafNode := by
    ext n
    simp only [Finset.mem_filter, Finset.mem_image, LinTree.memLeaves, Finset.mem_range]
    constructor
    · rintro ⟨⟨inside, leaf⟩, isKnown⟩
      obtain ⟨cnt, small, rfl⟩ := p.layout.leafNodeSurjective inside leaf
      rw [Merkle.knownLeaf p.layout c.array small, beq_iff_eq] at isKnown
      exact ⟨cnt, ⟨small, isKnown⟩, rfl⟩
    · rintro ⟨cnt, ⟨small, zero⟩, rfl⟩
      rw [Merkle.knownLeaf p.layout c.array small, beq_iff_eq]
      exact ⟨p.layout.leafNodeInside small, zero⟩
  rw [image, Finset.card_image_of_injOn, c.zeros]
  intro a ha b hb same
  have ha' := Finset.mem_range.mp (Finset.mem_filter.mp ha).1
  have hb' := Finset.mem_range.mp (Finset.mem_filter.mp hb).1
  exact p.layout.leafNodeInjective ha' hb' same

theorem sameCount : (p.layout.tree.tops (SeedTree.published p.layout c.array)).length =
    p.layout.tree.mixedCount (Merkle.known p.layout c.array) :=
  p.layout.tree.topsCount (SeedTree.publishedMarked p.layout c.array)
    (Merkle.knownOpposite p.layout c.arrayBinary)

theorem nodesFit (fixed : c.weight = p.w) :
    p.layout.tree.mixedCount (Merkle.known p.layout c.array) ≤ p.treeNodesToStore := by
  have settled := Merkle.knownSettled p.layout c.array
  rcases p.capacity with half | ⟨perfect, quarter⟩
  · have bound := p.layout.tree.mixedHalf settled fun n => p.layout.siblingsPaired
    rw [p.layout.leavesCard] at bound
    omega
  · have bound := p.layout.tree.mixedQuarter settled fun n => p.layout.siblingsBalanced perfect
    rw [knownLeavesCard, p.layout.leavesCard, fixed] at bound
    exact Nat.le_trans bound quarter

theorem sve2SeedPath (storage : Mem) (seedTree : Nat → Block p.seedLength) :
    SeedTree.seedPath p SeedTree.Sve2.computeSeedsToPublish storage seedTree c.array =
      let tops := p.layout.tree.tops (SeedTree.published p.layout c.array)
      let s := Mem.appendAll (tops.map seedTree) (storage, 0)
      ⟨s.1, s.2, tops⟩ :=
  SeedTree.seedPathRun p c.array (SeedTree.sve2SeedFlags p.layout c.array) storage seedTree

theorem seedPathCount (storage : Mem) (seedTree : Nat → Block p.seedLength) :
    (SeedTree.seedPath p SeedTree.Sve2.computeSeedsToPublish storage seedTree c.array).numSeedsPublished =
      (p.layout.tree.tops (SeedTree.published p.layout c.array)).length := by
  rw [sve2SeedPath]
  dsimp only
  rw [Mem.appendAllCount, List.length_map, Nat.zero_add]

theorem seedPathNodes (storage : Mem) (seedTree : Nat → Block p.seedLength) :
    (SeedTree.seedPath p SeedTree.Sve2.computeSeedsToPublish storage seedTree c.array).published =
      p.layout.tree.tops (SeedTree.published p.layout c.array) := by
  rw [sve2SeedPath]

theorem seedPathSlot (storage : Mem) (seedTree : Nat → Block p.seedLength) (i : Nat)
    (below : i < (p.layout.tree.tops (SeedTree.published p.layout c.array)).length) :
    (SeedTree.seedPath p SeedTree.Sve2.computeSeedsToPublish storage seedTree c.array).storage.slot
      p.seedLength i = seedTree (p.layout.tree.tops (SeedTree.published p.layout c.array))[i] := by
  have slot := Mem.appendAllSlot ((p.layout.tree.tops (SeedTree.published p.layout c.array)).map seedTree)
    (storage, 0) i (by simpa using below)
  rw [Nat.zero_add, List.getElem_map] at slot
  rw [sve2SeedPath]
  exact slot

theorem seedPathOutside (storage : Mem) (seedTree : Nat → Block p.seedLength) (a : Nat)
    (beyond : (p.layout.tree.tops (SeedTree.published p.layout c.array)).length * p.seedLength ≤ a) :
    (SeedTree.seedPath p SeedTree.Sve2.computeSeedsToPublish storage seedTree c.array).storage a =
      storage a := by
  rw [sve2SeedPath]
  exact Mem.appendAllOutside _ (storage, 0) a (.inr (by simpa using beyond))

theorem treeProofCount (mtp : Mem) (tree : Merkle.Digests p) :
    (Merkle.treeProof p mtp tree c.array).published =
      p.layout.tree.mixedCount (Merkle.known p.layout c.array) := by
  rw [Merkle.treeProofRun]
  dsimp only
  rw [Mem.appendAllCount, List.length_map, List.length_map, Nat.zero_add]
  rfl

theorem treeProofSlot (mtp : Mem) (tree : Merkle.Digests p) (i : Nat)
    (below : i < (p.layout.tree.sent (Merkle.known p.layout c.array)).length) :
    (Merkle.treeProof p mtp tree c.array).mtp.slot p.hashLength i =
      tree (LinTree.missing (Merkle.known p.layout c.array)
        (p.layout.tree.sent (Merkle.known p.layout c.array))[i]) := by
  have slot := Mem.appendAllSlot (((p.layout.tree.sent (Merkle.known p.layout c.array)).map
    (LinTree.missing (Merkle.known p.layout c.array))).map tree) (mtp, 0) i (by simpa using below)
  rw [Nat.zero_add, List.getElem_map, List.getElem_map] at slot
  rw [Merkle.treeProofRun]
  exact slot

theorem treeProofOutside (mtp : Mem) (tree : Merkle.Digests p) (a : Nat)
    (beyond : p.layout.tree.mixedCount (Merkle.known p.layout c.array) * p.hashLength ≤ a) :
    (Merkle.treeProof p mtp tree c.array).mtp a = mtp a := by
  rw [Merkle.treeProofRun]
  exact Mem.appendAllOutside _ (mtp, 0) a (.inr (by simpa [LinTree.mixedCount] using beyond))

theorem rebuildUsed (seedTree : Slots (Block p.seedLength)) (stored : Mem) (salt : Block p.saltLength) :
    (SeedTree.Sve2.rebuildTree p shake seedTree c.array stored salt).restoring.used =
      (p.layout.tree.tops (SeedTree.published p.layout c.array)).length :=
  (SeedTree.sve2RebuildRestored p shake seedTree c.array stored salt).used

theorem rebuildAccepted (seedTree : Slots (Block p.seedLength)) (stored : Mem) (salt : Block p.saltLength) :
    (SeedTree.Sve2.rebuildTree p shake seedTree c.array stored salt).accepted = true ↔
      ∀ a, (p.layout.tree.tops (SeedTree.published p.layout c.array)).length * p.seedLength ≤ a →
        a < p.treeNodesToStore * p.seedLength → stored a = 0 := by
  rw [← rebuildUsed p shake c seedTree stored salt]
  exact paddingClearIff p stored _ _

theorem recomputeState (tree leaves : Merkle.Digests p) (mtp : Mem) :
    p.layout.tree.Recomputed (Merkle.digestOf p shake) (Merkle.proofNode p mtp)
      (Merkle.known p.layout c.array) (Merkle.initialState p tree leaves c.array) 0
      (Merkle.recomputed p shake tree leaves mtp c.array) :=
  p.layout.tree.recomputeRun _ _ (Merkle.knownSettled p.layout c.array)
    (fun _ _ leaf => (Merkle.knownLabels p.layout c.array leaf).symm)
    (fun _ _ isInner => Merkle.labelsInner p.layout c.array fun _ => isInner) ⟨rfl, rfl⟩

theorem recomputeUsed (tree leaves : Merkle.Digests p) (mtp : Mem) :
    (Merkle.Sve2.recomputeRoot p shake tree leaves mtp c.array).state.published =
      p.layout.tree.mixedCount (Merkle.known p.layout c.array) := by
  rw [Merkle.sve2RecomputeRoot]
  exact (recomputeState p shake c tree leaves mtp).used

theorem recomputeAccepted (tree leaves : Merkle.Digests p) (mtp : Mem) :
    (Merkle.Sve2.recomputeRoot p shake tree leaves mtp c.array).accepted = true ↔
      ∀ a, p.layout.tree.mixedCount (Merkle.known p.layout c.array) * p.hashLength ≤ a →
        a < p.treeNodesToStore * p.hashLength → mtp a = 0 := by
  rw [← recomputeUsed p shake c tree leaves mtp, Merkle.sve2RecomputeRoot]
  exact paddingClearIff p mtp _ _

theorem rootNotAllOnes (zero : ∃ cnt < p.t, c.array cnt = 0) :
    SeedTree.published p.layout c.array 0 = false := by
  obtain ⟨cnt, inside, zero⟩ := zero
  exact SeedTree.rootHidden p.layout inside (by rw [zero]; decide)

theorem topsMaximal (zero : ∃ cnt < p.t, c.array cnt = 0) (n : Nat) :
    n ∈ p.layout.tree.tops (SeedTree.published p.layout c.array) ↔
      n < p.layout.numNodes ∧ c.AllOnes n ∧ ∀ a, p.layout.tree.Anc a n → a ≠ n → ¬ c.AllOnes a := by
  rw [LinTree.memTops]
  constructor
  · rintro ⟨positive, inside, isTop⟩
    obtain ⟨own, up⟩ : SeedTree.published p.layout c.array n = true ∧
        SeedTree.published p.layout c.array (p.layout.tree.parent n) = false := by
      simpa [LinTree.top] using isTop
    have bound := (p.layout.tree.parentInner positive inside).1
    refine ⟨inside, (publishedAllOnes p c inside).mp own, fun a above proper ones => ?_⟩
    cases above with
    | refl => exact proper rfl
    | up _ _ above =>
      have father : c.AllOnes (p.layout.tree.parent n) := fun cnt small below =>
        ones cnt small (p.layout.tree.ancTrans above below)
      rw [(publishedAllOnes p c bound).mpr father] at up
      contradiction
  · rintro ⟨inside, ones, maximal⟩
    have own := (publishedAllOnes p c inside).mpr ones
    have positive : 0 < n := Nat.pos_of_ne_zero fun root => by
      rw [root, rootNotAllOnes p c zero] at own
      contradiction
    have bound := (p.layout.tree.parentInner positive inside).1
    have below := p.layout.tree.parentBelow positive inside
    refine ⟨positive, inside, ?_⟩
    have up : SeedTree.published p.layout c.array (p.layout.tree.parent n) = false := by
      cases flag : SeedTree.published p.layout c.array (p.layout.tree.parent n) with
      | false => rfl
      | true =>
        exact absurd ((publishedAllOnes p c bound).mp flag)
          (maximal _ (.up positive inside (.refl _)) (by omega))
    rw [LinTree.top, own, up]
    rfl

theorem topsAbove (zero : ∃ cnt < p.t, c.array cnt = 0) {cnt : Nat} (small : cnt < p.t)
    (one : c.array cnt = 1) : ∃! a, a ∈ p.layout.tree.tops (SeedTree.published p.layout c.array) ∧
      p.layout.tree.Anc a (p.layout.leafNode cnt) := by
  have leaf := p.layout.leafNodeInside small
  have full := fun {n} (h : n < p.layout.numNodes) => SeedTree.publishedFull p.layout c.array h
  have own : SeedTree.published p.layout c.array (p.layout.leafNode cnt) = true := by
    rw [SeedTree.publishedLeaf p.layout _ small, one]; rfl
  have maxFull : ∀ a, a ∈ p.layout.tree.tops (SeedTree.published p.layout c.array) ↔
      p.layout.tree.MaxFull (SeedTree.published p.layout c.array) a := by
    intro a
    rw [LinTree.memTops, LinTree.MaxFull]
    refine and_congr_right fun positive => and_congr_right fun inside => ?_
    have bound := (p.layout.tree.parentInner positive inside).1
    rw [← full inside, ← full bound]
    simp [LinTree.top]
  have mixed : ¬ p.layout.tree.Full (SeedTree.published p.layout c.array) 0 := by
    rw [← full p.layout.tree.nonempty, rootNotAllOnes p c zero]
    simp
  obtain ⟨a, top, above⟩ := p.layout.tree.maxFullAbove mixed _ leaf.1 ((full leaf.1).mp own)
  refine ⟨a, ⟨(maxFull a).mpr top, above⟩, fun b other => ?_⟩
  exact p.layout.tree.maxFullUnique ((maxFull b).mp other.1) top other.2 above

theorem hiddenAncestor {cnt : Nat} (small : cnt < p.t) (zero : c.array cnt = 0) {a : Nat}
    (above : p.layout.tree.Anc a (p.layout.leafNode cnt)) :
    SeedTree.published p.layout c.array a = false := by
  have leaf := p.layout.leafNodeInside small
  have le := p.layout.tree.ancLe above
  cases flag : SeedTree.published p.layout c.array a with
  | false => rfl
  | true =>
    have one := (publishedAllOnes p c (by omega)).mp flag cnt small above
    rw [zero] at one
    exact absurd one (by decide)

theorem rebuildWrites (cells : Nat → Block p.seedLength) (stored : Mem) (salt : Block p.saltLength) :
    let nodes := (SeedTree.Sve2.rebuildTree p shake ⟨cells, []⟩ c.array stored salt).restoring.nodes
    (∀ n ∈ nodes.log, SeedTree.published p.layout c.array n = true) ∧
      ∀ n ∉ nodes.log, nodes.cell n = cells n := by
  have inv := SeedTree.sve2RebuildRestored p shake ⟨cells, []⟩ c.array stored salt
  obtain ⟨fresh, log, _, members⟩ := inv.written
  refine ⟨fun n member => ?_, inv.kept⟩
  rw [log, List.append_nil] at member
  exact ((members n).mp member).2.2.1

theorem rebuildLoaded (cells : Nat → Block p.seedLength) (stored : Mem) (salt : Block p.saltLength) (i : Nat)
    (below : i < (p.layout.tree.tops (SeedTree.published p.layout c.array)).length) :
    (SeedTree.Sve2.rebuildTree p shake ⟨cells, []⟩ c.array stored salt).restoring.nodes.cell
      (p.layout.tree.tops (SeedTree.published p.layout c.array))[i] = stored.slot p.seedLength i :=
  (SeedTree.sve2RebuildRestored p shake ⟨cells, []⟩ c.array stored salt).loaded i below

theorem slotAgree {len n : Nat} {m m' : Mem} (agree : ∀ a < n * len, m a = m' a) {i : Nat} (below : i < n) :
    m.slot len i = m'.slot len i := by
  refine Mem.blockCongr fun k hk => agree _ ?_
  have := Nat.mul_le_mul_right len (show i + 1 ≤ n from below)
  rw [Nat.succ_mul] at this
  omega

theorem rebuildReads (fixed : c.weight = p.w) (cells : Nat → Block p.seedLength) {stored stored' : Mem}
    (salt : Block p.saltLength) (agree : ∀ a < p.treeNodesToStore * p.seedLength, stored a = stored' a) :
    let result := SeedTree.Sve2.rebuildTree p shake ⟨cells, []⟩ c.array stored salt
    let result' := SeedTree.Sve2.rebuildTree p shake ⟨cells, []⟩ c.array stored' salt
    result.restoring.nodes.cell = result'.restoring.nodes.cell ∧ result.accepted = result'.accepted := by
  have fit := sameCount p c ▸ nodesFit p c fixed
  have inv := SeedTree.sve2RebuildRestored p shake ⟨cells, []⟩ c.array stored salt
  have inv' := SeedTree.sve2RebuildRestored p shake ⟨cells, []⟩ c.array stored' salt
  have reads := p.layout.tree.restoredReads (SeedTree.children p shake salt)
    (SeedTree.storedSeed p stored) (fun i below => slotAgree agree (Nat.lt_of_lt_of_le below fit)) inv
  refine ⟨(p.layout.tree.restoredUnique _ _ reads inv' rfl).1, ?_⟩
  rw [Bool.eq_iff_iff, rebuildAccepted, rebuildAccepted]
  exact forall_congr' fun a => imp_congr_right fun _ => imp_congr_right fun high => by rw [agree a high]

theorem recomputeReads (fixed : c.weight = p.w) (tree leaves : Merkle.Digests p) {mtp mtp' : Mem}
    (agree : ∀ a < p.treeNodesToStore * p.hashLength, mtp a = mtp' a) :
    Merkle.Sve2.recomputeRoot p shake tree leaves mtp c.array =
      Merkle.Sve2.recomputeRoot p shake tree leaves mtp' c.array := by
  have same : Merkle.recomputed p shake tree leaves mtp c.array =
      Merkle.recomputed p shake tree leaves mtp' c.array :=
    p.layout.tree.recomputeReads _ _ (Merkle.knownSettled p.layout c.array)
      (fun _ _ leaf => (Merkle.knownLabels p.layout c.array leaf).symm)
      (fun _ _ isInner => Merkle.labelsInner p.layout c.array fun _ => isInner) ⟨rfl, rfl⟩
      fun i below => slotAgree agree (Nat.lt_of_lt_of_le below (nodesFit p c fixed))
  have accepted : (Merkle.Sve2.recomputeRoot p shake tree leaves mtp c.array).accepted =
      (Merkle.Sve2.recomputeRoot p shake tree leaves mtp' c.array).accepted := by
    rw [Bool.eq_iff_iff, recomputeAccepted, recomputeAccepted]
    exact forall_congr' fun a => imp_congr_right fun _ => imp_congr_right fun high => by rw [agree a high]
  rw [Merkle.sve2RecomputeRoot, Merkle.sve2RecomputeRoot, same] at accepted ⊢
  simp only [Merkle.finish] at accepted ⊢
  rw [accepted]

theorem pathAccepted (signerTree : Nat → Block p.seedLength) (verifierTree : Slots (Block p.seedLength))
    (salt : Block p.saltLength) :
    let path := SeedTree.seedPath p SeedTree.Sve2.computeSeedsToPublish Mem.zero signerTree c.array
    (SeedTree.Sve2.rebuildTree p shake verifierTree c.array path.storage salt).accepted = true :=
  (rebuildAccepted p shake c verifierTree _ salt).mpr fun a low _ => seedPathOutside p c Mem.zero signerTree a low

theorem pathRestores (zero : ∃ cnt < p.t, c.array cnt = 0) (rootSeed : Block p.seedLength) (salt : Block p.saltLength)
    (signerTree verifierTree : Slots (Block p.seedLength)) (signerSeeds verifierSeeds : Nat → Block p.seedLength) :
    let tree := SeedTree.Sve2.genSeedTree p shake signerTree rootSeed salt
    let path := SeedTree.seedPath p SeedTree.Sve2.computeSeedsToPublish Mem.zero tree.cell c.array
    let rebuilt := SeedTree.Sve2.rebuildTree p shake verifierTree c.array path.storage salt
    ∀ cnt < p.t, c.array cnt = 1 → SeedTree.seedLeaves p verifierSeeds rebuilt.restoring.nodes.cell cnt =
      SeedTree.seedLeaves p signerSeeds tree.cell cnt := by
  intro tree path rebuilt cnt small one
  have grown := p.layout.tree.spreadRun (SeedTree.children p shake salt) (signerTree.put 0 rootSeed)
  change p.layout.tree.Spread _ _ _ (Loop.upTo p.layout.numNodes _ _) at grown
  rw [← SeedTree.portableGenSeedTree, ← SeedTree.sve2GenSeedTree] at grown
  have value := p.layout.tree.restoredValue (SeedTree.children p shake salt)
    (SeedTree.storedSeed p path.storage) tree.cell (rootNotAllOnes p c zero)
    (SeedTree.sve2RebuildRestored p shake verifierTree c.array path.storage salt) grown.grown
    (seedPathSlot p c Mem.zero tree.cell)
  have leaf := p.layout.leafNodeInside small
  have own : SeedTree.published p.layout c.array (p.layout.leafNode cnt) = true := by
    rw [SeedTree.publishedLeaf p.layout _ small, one]
    rfl
  rw [SeedTree.seedLeaves, SeedTree.seedLeaves, p.layout.leafLoopGather, p.layout.leafLoopGather,
    if_pos small, if_pos small]
  exact value _ leaf.1 own

theorem proofAccepted (signerTree verifierTree recomputed : Merkle.Digests p) :
    let proof := Merkle.treeProof p Mem.zero signerTree c.array
    (Merkle.Sve2.recomputeRoot p shake verifierTree recomputed proof.mtp c.array).accepted = true :=
  (recomputeAccepted p shake c verifierTree recomputed _).mpr fun a low _ =>
    treeProofOutside p c Mem.zero signerTree a low

theorem proofRestores (zero : ∃ cnt < p.t, c.array cnt = 0) (commitments recomputed : Merkle.Digests p)
    (agree : ∀ cnt < p.t, c.array cnt = 0 → recomputed cnt = commitments cnt)
    (signerTree verifierTree : Merkle.Digests p) :
    let tree := Merkle.wholeTree p shake signerTree commitments
    let proof := Merkle.treeProof p Mem.zero tree c.array
    (Merkle.Sve2.recomputeRoot p shake verifierTree recomputed proof.mtp c.array).root = tree 0 := by
  intro tree proof
  obtain ⟨cnt, inside, zero⟩ := zero
  have value : ∀ n < p.layout.tree.size, Merkle.known p.layout c.array n = true →
      (Merkle.recomputed p shake verifierTree recomputed proof.mtp c.array).value n = tree n := by
    refine p.layout.tree.recomputeValue (Merkle.digestOf p shake) (Merkle.proofNode p proof.mtp)
      (Merkle.knownSettled p.layout c.array) (fun _ _ leaf => (Merkle.knownLabels p.layout c.array leaf).symm)
      (fun _ _ isInner => Merkle.labelsInner p.layout c.array fun _ => isInner) ⟨rfl, rfl⟩
      tree (Merkle.wholeTreeSettled p shake signerTree commitments) ?_ ?_
    · intro n bound leaf isKnown
      obtain ⟨round, small, rfl⟩ := p.layout.leafNodeSurjective bound leaf
      rw [Merkle.knownLeaf p.layout _ small, beq_iff_eq] at isKnown
      have leaf := Merkle.wholeTreeLeaf p shake signerTree commitments small
      rw [show tree (p.layout.leafNode round) = commitments round from leaf, ← agree round small isKnown]
      exact (p.layout.leafLoopScatter (fun cnt _ => recomputed cnt) verifierTree).1 round small
    · exact fun i below => treeProofSlot p c Mem.zero tree i below
  rw [Merkle.sve2RecomputeRoot]
  exact value 0 p.layout.tree.nonempty (Merkle.rootKnown p.layout inside zero)

end General

theorem seedPathRoundTrip (category : Category) (shake : Shake)
    (rootSeed : Block category.parameters.seedLength) (salt : Block category.parameters.saltLength)
    (challenge : Challenge category.parameters)
    (zero : ∃ cnt < category.parameters.t, challenge.array cnt = 0)
    (signerTree verifierTree : Slots (Block category.parameters.seedLength))
    (signerSeeds verifierSeeds : Nat → Block category.parameters.seedLength) :
    let p := category.parameters
    let tree := SeedTree.Sve2.genSeedTree p shake signerTree rootSeed salt
    let path := SeedTree.seedPath p SeedTree.Sve2.computeSeedsToPublish Mem.zero tree.cell challenge.array
    let rebuilt := SeedTree.Sve2.rebuildTree p shake verifierTree challenge.array path.storage salt
    rebuilt.accepted = true ∧ ∀ cnt < p.t, challenge.array cnt = 1 →
      SeedTree.seedLeaves p verifierSeeds rebuilt.restoring.nodes.cell cnt =
        SeedTree.seedLeaves p signerSeeds tree.cell cnt := by
  intro p tree path rebuilt
  exact ⟨pathAccepted p shake challenge tree.cell verifierTree salt,
    pathRestores p shake challenge zero rootSeed salt signerTree verifierTree signerSeeds verifierSeeds⟩

theorem seedPathRoundTripInitial :
    let p := Category.parameters .three
    let shake : Shake := fun _ _ n => Block.zero n
    let tree := SeedTree.Sve2.genSeedTree p shake ⟨fun _ => Block.zero _, []⟩ (Block.zero _) (Block.zero _)
    let path := SeedTree.seedPath p SeedTree.Sve2.computeSeedsToPublish Mem.zero tree.cell
      (Challenge.initial p).array
    let rebuilt := SeedTree.Sve2.rebuildTree p shake ⟨fun _ => Block.zero _, []⟩ (Challenge.initial p).array
      path.storage (Block.zero _)
    rebuilt.accepted = true ∧ ∀ cnt < p.t, (Challenge.initial p).array cnt = 1 →
      SeedTree.seedLeaves p (fun _ => Block.zero _) rebuilt.restoring.nodes.cell cnt =
        SeedTree.seedLeaves p (fun _ => Block.zero _) tree.cell cnt :=
  seedPathRoundTrip .three (fun _ _ n => Block.zero n) (Block.zero _) (Block.zero _)
    (Challenge.initial _) (Challenge.initialZero _) ⟨fun _ => Block.zero _, []⟩ ⟨fun _ => Block.zero _, []⟩
    (fun _ => Block.zero _) (fun _ => Block.zero _)

theorem merkleProofRoundTrip (category : Category) (shake : Shake)
    (commitments recomputed : Merkle.Digests category.parameters)
    (challenge : Challenge category.parameters)
    (zero : ∃ cnt < category.parameters.t, challenge.array cnt = 0)
    (agree : ∀ cnt < category.parameters.t, challenge.array cnt = 0 → recomputed cnt = commitments cnt)
    (signerTree verifierTree : Merkle.Digests category.parameters) :
    let p := category.parameters
    let built := Merkle.Sve2.treeRoot p shake signerTree commitments
    let proof := Merkle.treeProof p Mem.zero built.2 challenge.array
    let result := Merkle.Sve2.recomputeRoot p shake verifierTree recomputed proof.mtp challenge.array
    result.accepted = true ∧ result.root = built.1 := by
  intro p built proof result
  have tree : built = (Merkle.wholeTree p shake signerTree commitments 0,
      Merkle.wholeTree p shake signerTree commitments) :=
    (Merkle.sve2TreeRoot p shake signerTree commitments).trans
      (Merkle.portableTreeRoot p shake signerTree commitments)
  refine ⟨proofAccepted p shake challenge built.2 verifierTree recomputed, ?_⟩
  change (Merkle.Sve2.recomputeRoot p shake verifierTree recomputed (Merkle.treeProof p Mem.zero built.2
    challenge.array).mtp challenge.array).root = built.1
  rw [tree]
  exact proofRestores p shake challenge zero commitments recomputed agree signerTree verifierTree

theorem merkleProofRoundTripInitial :
    let p := Category.parameters .three
    let shake : Shake := fun _ _ n => Block.zero n
    let commitments : Merkle.Digests p := fun cnt => Vector.replicate _ (UInt8.ofNat cnt)
    let built := Merkle.Sve2.treeRoot p shake (fun _ => Block.zero _) commitments
    let proof := Merkle.treeProof p Mem.zero built.2 (Challenge.initial p).array
    let result := Merkle.Sve2.recomputeRoot p shake (fun _ => Block.zero _)
      (fun cnt => if (Challenge.initial p).array cnt = 0 then commitments cnt else Block.zero _) proof.mtp
      (Challenge.initial p).array
    result.accepted = true ∧ result.root = built.1 :=
  merkleProofRoundTrip .three (fun _ _ n => Block.zero n) (fun cnt => Vector.replicate _ (UInt8.ofNat cnt))
    (fun cnt => if (Challenge.initial (Category.parameters .three)).array cnt = 0 then
      Vector.replicate _ (UInt8.ofNat cnt) else Block.zero _)
    (Challenge.initial _) (Challenge.initialZero _) (fun _ _ zero => if_pos zero)
    (fun _ => Block.zero _) (fun _ => Block.zero _)

theorem seedHiding (category : Category) (shake : Shake) (challenge : Challenge category.parameters)
    (zero : ∃ cnt < category.parameters.t, challenge.array cnt = 0)
    (storage : Mem) (seedTree : Nat → Block category.parameters.seedLength)
    (cells : Nat → Block category.parameters.seedLength) (stored : Mem)
    (salt : Block category.parameters.saltLength) :
    let p := category.parameters
    let tree := p.layout.tree
    let path := SeedTree.seedPath p SeedTree.Sve2.computeSeedsToPublish storage seedTree challenge.array
    let rebuilt := (SeedTree.Sve2.rebuildTree p shake ⟨cells, []⟩ challenge.array stored salt).restoring.nodes
    path.numSeedsPublished = path.published.length ∧
    (∀ a, path.published.length * p.seedLength ≤ a → path.storage a = storage a) ∧
    (∀ i, (h : i < path.published.length) → path.storage.slot p.seedLength i = seedTree path.published[i]) ∧
    (∀ n, n ∈ path.published ↔
      n < p.layout.numNodes ∧ challenge.AllOnes n ∧ ∀ a, tree.Anc a n → a ≠ n → ¬ challenge.AllOnes a) ∧
    (∀ cnt < p.t, challenge.array cnt = 1 →
      ∃! a, a ∈ path.published ∧ tree.Anc a (p.layout.leafNode cnt)) ∧
    ∀ cnt < p.t, challenge.array cnt = 0 → ∀ a, tree.Anc a (p.layout.leafNode cnt) →
      a ∉ path.published ∧ a ∉ rebuilt.log ∧ rebuilt.cell a = cells a := by
  intro p tree path rebuilt
  have nodes : path.published = _ := seedPathNodes p challenge storage seedTree
  have writes := rebuildWrites p shake challenge cells stored salt
  refine ⟨?_, fun a beyond => ?_, fun i below => ?_, fun n => ?_, fun cnt small one => ?_,
    fun cnt small hidden a above => ?_⟩
  · rw [nodes]
    exact seedPathCount p challenge storage seedTree
  · rw [nodes] at beyond
    exact seedPathOutside p challenge storage seedTree a beyond
  · have slot := seedPathSlot p challenge storage seedTree i (by rwa [nodes] at below)
    simp only [nodes]
    exact slot
  · rw [nodes]
    exact topsMaximal p challenge zero n
  · rw [nodes]
    exact topsAbove p challenge zero small one
  · have flag := hiddenAncestor p challenge small hidden above
    have unwritten : a ∉ rebuilt.log := fun member => by
      rw [writes.1 a member] at flag
      contradiction
    refine ⟨fun member => ?_, unwritten, writes.2 a unwritten⟩
    rw [nodes, LinTree.memTops] at member
    have own : SeedTree.published p.layout challenge.array a = true := by
      have := member.2.2
      simp only [LinTree.top, Bool.and_eq_true] at this
      exact this.1
    rw [own] at flag
    contradiction

theorem seedHidingInitial :
    let p := Category.parameters .three
    let challenge := Challenge.initial p
    let path := SeedTree.seedPath p SeedTree.Sve2.computeSeedsToPublish Mem.zero (fun _ => Block.zero _)
      challenge.array
    let rebuilt := (SeedTree.Sve2.rebuildTree p (fun _ _ n => Block.zero n) ⟨fun _ => Block.zero _, []⟩
      challenge.array Mem.zero (Block.zero _)).restoring.nodes
    path.numSeedsPublished = path.published.length ∧
    (∀ a, path.published.length * p.seedLength ≤ a → path.storage a = Mem.zero a) ∧
    (∀ i, (h : i < path.published.length) →
      path.storage.slot p.seedLength i = (fun _ => Block.zero _) path.published[i]) ∧
    (∀ n, n ∈ path.published ↔ n < p.layout.numNodes ∧ challenge.AllOnes n ∧
      ∀ a, p.layout.tree.Anc a n → a ≠ n → ¬ challenge.AllOnes a) ∧
    (∀ cnt < p.t, challenge.array cnt = 1 →
      ∃! a, a ∈ path.published ∧ p.layout.tree.Anc a (p.layout.leafNode cnt)) ∧
    ∀ cnt < p.t, challenge.array cnt = 0 → ∀ a, p.layout.tree.Anc a (p.layout.leafNode cnt) →
      a ∉ path.published ∧ a ∉ rebuilt.log ∧ rebuilt.cell a = Block.zero _ :=
  seedHiding .three (fun _ _ n => Block.zero n) (Challenge.initial _) (Challenge.initialZero _) Mem.zero
    (fun _ => Block.zero _) (fun _ => Block.zero _) Mem.zero (Block.zero _)

theorem nodesWithinBuffers (category : Category) (shake : Shake) (challenge : Challenge category.parameters)
    (fixed : challenge.weight = category.parameters.w)
    (storage mtp stored mtp' : Mem) (seedTree cells : Nat → Block category.parameters.seedLength)
    (tree leaves : Merkle.Digests category.parameters) (salt : Block category.parameters.saltLength) :
    let p := category.parameters
    let path := SeedTree.seedPath p SeedTree.Sve2.computeSeedsToPublish storage seedTree challenge.array
    let proof := Merkle.treeProof p mtp tree challenge.array
    let rebuilt := fun stored => SeedTree.Sve2.rebuildTree p shake ⟨cells, []⟩ challenge.array stored salt
    let recomputed := fun mtp => Merkle.Sve2.recomputeRoot p shake tree leaves mtp challenge.array
    path.numSeedsPublished = proof.published ∧
    path.numSeedsPublished ≤ p.treeNodesToStore ∧
    (rebuilt stored).restoring.used = path.numSeedsPublished ∧
    (recomputed mtp').state.published = proof.published ∧
    (∀ a, p.treeNodesToStore * p.seedLength ≤ a → path.storage a = storage a) ∧
    (∀ a, p.treeNodesToStore * p.hashLength ≤ a → proof.mtp a = mtp a) ∧
    (∀ other : Mem, (∀ a < p.treeNodesToStore * p.seedLength, stored a = other a) →
      (rebuilt stored).restoring.nodes.cell = (rebuilt other).restoring.nodes.cell ∧
      (rebuilt stored).accepted = (rebuilt other).accepted) ∧
    ∀ other : Mem, (∀ a < p.treeNodesToStore * p.hashLength, mtp' a = other a) →
      recomputed mtp' = recomputed other := by
  intro p path proof rebuilt recomputed
  have seeds : path.numSeedsPublished = _ := seedPathCount p challenge storage seedTree
  have digests : proof.published = _ := treeProofCount p challenge mtp tree
  have count := sameCount p challenge
  have fit := nodesFit p challenge fixed
  refine ⟨by rw [seeds, digests, count], by rw [seeds, count]; exact fit, ?_, ?_, fun a beyond => ?_,
    fun a beyond => ?_, fun other agree => ?_, fun other agree => ?_⟩
  · rw [seeds]
    exact rebuildUsed p shake challenge ⟨cells, []⟩ stored salt
  · rw [digests]
    exact recomputeUsed p shake challenge tree leaves mtp'
  · refine seedPathOutside p challenge storage seedTree a (Nat.le_trans ?_ beyond)
    rw [count]
    exact Nat.mul_le_mul_right _ fit
  · exact treeProofOutside p challenge mtp tree a (Nat.le_trans (Nat.mul_le_mul_right _ fit) beyond)
  · exact rebuildReads p shake challenge fixed cells salt agree
  · exact recomputeReads p shake challenge fixed tree leaves agree

theorem nodesWithinBuffersInitial :
    let p := Category.parameters .five
    let challenge := Challenge.initial p
    (SeedTree.seedPath p SeedTree.Sve2.computeSeedsToPublish Mem.zero (fun _ => Block.zero _)
        challenge.array).numSeedsPublished =
      (Merkle.treeProof p Mem.zero (fun _ => Block.zero _) challenge.array).published ∧
    (SeedTree.seedPath p SeedTree.Sve2.computeSeedsToPublish Mem.zero (fun _ => Block.zero _)
        challenge.array).numSeedsPublished ≤ 185 :=
  have all := nodesWithinBuffers .five (fun _ _ n => Block.zero n) (Challenge.initial _)
    (Challenge.initialWeight _) Mem.zero Mem.zero Mem.zero Mem.zero (fun _ => Block.zero _)
    (fun _ => Block.zero _) (fun _ => Block.zero _) (fun _ => Block.zero _) (Block.zero _)
  ⟨all.1, all.2.1⟩

theorem singleEncoding (category : Category) (shake : Shake) (challenge : Challenge category.parameters)
    (storage mtp : Mem) (seedTree cells : Nat → Block category.parameters.seedLength)
    (tree leaves : Merkle.Digests category.parameters) (salt : Block category.parameters.saltLength) :
    let p := category.parameters
    let path := SeedTree.seedPath p SeedTree.Sve2.computeSeedsToPublish storage seedTree challenge.array
    let proof := Merkle.treeProof p mtp tree challenge.array
    let rebuilt := fun stored => SeedTree.Sve2.rebuildTree p shake ⟨cells, []⟩ challenge.array stored salt
    let recomputed := fun mtp => Merkle.Sve2.recomputeRoot p shake tree leaves mtp challenge.array
    (∀ stored : Block (p.treeNodesToStore * p.seedLength),
      (rebuilt (Mem.ofBlock stored)).accepted = true ↔
        ∀ a, path.numSeedsPublished * p.seedLength ≤ a →
          (h : a < p.treeNodesToStore * p.seedLength) → stored[a] = 0) ∧
    (∀ stored stored' : Block (p.treeNodesToStore * p.seedLength), stored ≠ stored' →
      (rebuilt (Mem.ofBlock stored)).accepted = true → (rebuilt (Mem.ofBlock stored')).accepted = true →
      ∃ n ∈ path.published, (rebuilt (Mem.ofBlock stored)).restoring.nodes.cell n ≠
        (rebuilt (Mem.ofBlock stored')).restoring.nodes.cell n) ∧
    (∀ stored : Block (p.treeNodesToStore * p.hashLength),
      (recomputed (Mem.ofBlock stored)).accepted = true ↔
        ∀ a, proof.published * p.hashLength ≤ a →
          (h : a < p.treeNodesToStore * p.hashLength) → stored[a] = 0) ∧
    ∀ stored : Block (p.treeNodesToStore * p.hashLength),
      let state := (recomputed (Mem.ofBlock stored)).state
      state.calls.reverse.flatMap LinTree.HashCall.slots = List.range proof.published ∧
      ∀ call ∈ state.calls,
        state.tree call.target = Merkle.hashNodes p shake call.left.value call.right.value ∧
        (∀ k, call.left.source = .proof k → call.left.value = (Mem.ofBlock stored).slot p.hashLength k) ∧
        ∀ k, call.right.source = .proof k → call.right.value = (Mem.ofBlock stored).slot p.hashLength k := by
  intro p path proof rebuilt recomputed
  have seeds : path.numSeedsPublished = _ := seedPathCount p challenge storage seedTree
  have nodes : path.published = _ := seedPathNodes p challenge storage seedTree
  have digests : proof.published = _ := treeProofCount p challenge mtp tree
  refine ⟨fun stored => ?_, fun stored stored' differ ok ok' => ?_, fun stored => ?_, fun stored => ?_⟩
  · rw [seeds, rebuildAccepted p shake challenge ⟨cells, []⟩ (Mem.ofBlock stored) salt]
    refine forall_congr' fun a => imp_congr_right fun _ => forall_congr' fun high => ?_
    rw [Mem.ofBlockAt stored high]
  · have clear := (rebuildAccepted p shake challenge ⟨cells, []⟩ (Mem.ofBlock stored) salt).mp ok
    have clear' := (rebuildAccepted p shake challenge ⟨cells, []⟩ (Mem.ofBlock stored') salt).mp ok'
    by_contra none
    have same : ∀ n ∈ path.published, (rebuilt (Mem.ofBlock stored)).restoring.nodes.cell n =
        (rebuilt (Mem.ofBlock stored')).restoring.nodes.cell n := fun n member => by
      by_contra apart
      exact none ⟨n, member, apart⟩
    refine differ (Vector.ext fun a high => ?_)
    rw [← Mem.ofBlockAt stored high, ← Mem.ofBlockAt stored' high]
    rcases Nat.lt_or_ge a ((p.layout.tree.tops (SeedTree.published p.layout challenge.array)).length *
        p.seedLength) with low | beyond
    · have positive : 0 < p.seedLength := by
        rcases Nat.eq_zero_or_pos p.seedLength with zero | positive
        · rw [zero, Nat.mul_zero] at low; omega
        · exact positive
      have below := Nat.div_lt_of_lt_mul (by rwa [Nat.mul_comm] at low)
      have here := same _ (by rw [nodes]; exact List.getElem_mem below)
      have load := rebuildLoaded p shake challenge cells (Mem.ofBlock stored) salt _ below
      have load' := rebuildLoaded p shake challenge cells (Mem.ofBlock stored') salt _ below
      have slots := (load.symm.trans here).trans load'
      have byte : Mem.ofBlock stored (a / p.seedLength * p.seedLength + a % p.seedLength) =
          Mem.ofBlock stored' (a / p.seedLength * p.seedLength + a % p.seedLength) := by
        have left := Mem.slotAt (m := Mem.ofBlock stored) (i := a / p.seedLength) (Nat.mod_lt a positive)
        have right := Mem.slotAt (m := Mem.ofBlock stored') (i := a / p.seedLength) (Nat.mod_lt a positive)
        rw [← left, ← right, slots]
      rwa [Nat.div_add_mod'] at byte
    · rw [clear a beyond high, clear' a beyond high]
  · rw [digests, recomputeAccepted p shake challenge tree leaves (Mem.ofBlock stored)]
    refine forall_congr' fun a => imp_congr_right fun _ => forall_congr' fun high => ?_
    rw [Mem.ofBlockAt stored high]
  · have inv := recomputeState p shake challenge tree leaves (Mem.ofBlock stored)
    have state : (recomputed (Mem.ofBlock stored)).state = Merkle.encodeState p
        (Merkle.recomputed p shake tree leaves (Mem.ofBlock stored) challenge.array) := by
      change (Merkle.Sve2.recomputeRoot p shake tree leaves (Mem.ofBlock stored) challenge.array).state = _
      rw [Merkle.sve2RecomputeRoot]
      rfl
    dsimp only
    rw [state, digests]
    refine ⟨?_, fun call member => ?_⟩
    · have consumed := inv.consumed
      rwa [inv.used] at consumed
    · obtain ⟨_, _, _, value, left, right⟩ := inv.sound call member
      refine ⟨value, fun k source => ?_, fun k source => ?_⟩
      · simp only [LinTree.Half.Sound, source] at left
        exact left
      · simp only [LinTree.Half.Sound, source] at right
        exact right

end Armor.Cross
