import Armor.Cross.Scheme
import Armor.Cross.SamplingFacts

/-! The two builds sign with the same bytes and accept the same signatures. Their helpers agree on
what the samplers return; the queues of the SVE2 rounds settle to the rounds one by one. -/
namespace Armor.Cross

namespace Build

section Arithmetic

variable {m n k : Nat} (build : Build)

theorem word (fold : m % 4 ≤ 1) {e : FzVec m} {wMat : Matrix FzElem m (n - m)} (inE : InGroup e)
    (inW : MatrixInGroup wMat) : Redundant (build.fzInfWByFzMatrix e wMat) ∧
      ∀ i : Fin n, (build.fzInfWByFzMatrix e wMat)[i].toNat % 127 = wordClass e wMat i % 127 := by
  cases build with
  | portable => exact portableWord inE inW
  | sve2 length => exact sve2Word length fold inE inW

theorem normedWord (fold : m % 4 ≤ 1) {e : FzVec m} {wMat : Matrix FzElem m (n - m)} (inE : InGroup e)
    (inW : MatrixInGroup wMat) :
    fzDzNorm (build.fzInfWByFzMatrix e wMat) = fzDzNorm (Build.portable.fzInfWByFzMatrix e wMat) := by
  have here := build.word fold inE inW
  have there := Build.portable.word fold inE inW
  exact sameNorm here.1 there.1 fun i => by rw [here.2, there.2]

theorem restrWord (fold : m % 4 ≤ 1) {e : FzVec m} {wMat : Matrix FzElem m (n - m)} (inE : InGroup e)
    (inW : MatrixInGroup wMat) : convertRestrVecToFp (build.fzInfWByFzMatrix e wMat) =
      convertRestrVecToFp (Build.portable.fzInfWByFzMatrix e wMat) := by
  have here := build.word fold inE inW
  have there := Build.portable.word fold inE inW
  exact sameRestr here.1 there.1 fun i => by rw [here.2, there.2]

theorem rows (inside : k ≤ n) (room : 508 + k * (508 * 508) < 2 ^ 25) {u : FpVec n} {vTr : Matrix FpElem k (n - k)}
    (inU : Reduced u) (inV : MatrixReduced vTr) (j : Fin (n - k)) :
    (build.fpVecByFpMatrix inside u vTr)[j].toNat = rowSum inside u vTr j % 509 := by
  cases build with
  | portable => exact portableRows inU inV j
  | sve2 length => exact sve2Rows length room inU inV j

theorem rowsAgree (inside : k ≤ n) (room : 508 + k * (508 * 508) < 2 ^ 25) {u : FpVec n}
    {vTr : Matrix FpElem k (n - k)} (inU : Reduced u) (inV : MatrixReduced vTr) :
    build.fpVecByFpMatrix inside u vTr = Build.portable.fpVecByFpMatrix inside u vTr := by
  ext j inside'
  have here := build.rows inside room inU inV ⟨j, inside'⟩
  rw [← Build.portable.rows inside room inU inV ⟨j, inside'⟩] at here
  exact here

end Arithmetic

end Build

theorem pointwiseReduced {n : Nat} (a b : FpVec n) : Reduced (fpVecByFpVecPointwise a b) := by
  intro i
  have entry : (fpVecByFpVecPointwise a b)[i] = fpredDouble (a[i].toUInt32 * b[i].toUInt32) := by
    rw [fpVecByFpVecPointwise, readFin, Vector.getElem_ofFn]
  rw [entry, fpredDoubleNat]
  exact Nat.mod_lt _ (by decide)

theorem fzVecSubRedundant {n : Nat} {a b : FzVec n} (left : Redundant a) (right : Redundant b) :
    Redundant (fzVecSub a b) := by
  intro i
  exact (fzVecSubNat left right i).1

variable (p : Parameters) (shake : Shake) (build : Build)

theorem expandPkInGroup (seedPk : Block p.keypairSeedLength) : MatrixInGroup (expandPk p shake seedPk).wMat :=
  csprngFzMatInGroup p shake _

theorem expandPkReduced (seedPk : Block p.keypairSeedLength) : MatrixReduced (expandPk p shake seedPk).vTr :=
  csprngFpMatReduced p shake _

structure SoundSk (sk : ExpandedSk p) : Prop where
  inW : MatrixInGroup sk.wMat
  inV : MatrixReduced sk.vTr
  inE : InGroup sk.eBar
  inG : InGroup sk.eGBar

theorem expandErrorAgrees (seedE : Block p.keypairSeedLength) {pk : ExpandedPk p} (inW : MatrixInGroup pk.wMat) :
    expandError p shake build seedE pk = expandError p shake .portable seedE pk := by
  unfold expandError
  dsimp only
  rw [build.normedWord p.lastFold (csprngFzInfWInGroup p shake _) inW]

theorem expandSkAgrees (seedSk : Block p.keypairSeedLength) :
    expandSk p shake build seedSk = expandSk p shake .portable seedSk :=
  expandErrorAgrees p shake build _ (expandPkInGroup p shake _)

theorem expandErrorSound (seedE : Block p.keypairSeedLength) {pk : ExpandedPk p} (inW : MatrixInGroup pk.wMat)
    (inV : MatrixReduced pk.vTr) : SoundSk p (expandError p shake build seedE pk) where
  inW := inW
  inV := inV
  inE := fzDzNormInGroup (build.word p.lastFold (csprngFzInfWInGroup p shake _) inW).1
  inG := csprngFzInfWInGroup p shake _

theorem expandSkSound (seedSk : Block p.keypairSeedLength) : SoundSk p (expandSk p shake build seedSk) :=
  expandErrorSound p shake build _ (expandPkInGroup p shake _) (expandPkReduced p shake _)

theorem genSeedTreeAgrees (seedTree : Slots (Block p.seedLength)) (rootSeed : Block p.seedLength)
    (salt : Block p.saltLength) :
    build.genSeedTree p shake seedTree rootSeed salt = Build.portable.genSeedTree p shake seedTree rootSeed salt := by
  cases build with
  | portable => rfl
  | sve2 length => exact SeedTree.sve2GenSeedTree p shake seedTree rootSeed salt

theorem seedFlagsAgree (indices : Mem) :
    build.computeSeedsToPublish p.layout.toTreeTables (fun _ => SeedTree.notToPublish) indices =
      SeedTree.seedFlags p.layout indices := by
  cases build with
  | portable => rfl
  | sve2 length => exact SeedTree.sve2SeedFlags p.layout indices

theorem seedPathAgrees (storage : Mem) (seedTree : Nat → Block p.seedLength) (indices : Mem) :
    SeedTree.seedPath p build.computeSeedsToPublish storage seedTree indices =
      SeedTree.seedPath p Build.portable.computeSeedsToPublish storage seedTree indices := by
  rw [SeedTree.seedPathRun p indices (seedFlagsAgree p build indices),
    SeedTree.seedPathRun p indices (seedFlagsAgree p .portable indices)]

theorem treeRootWhole (tree leaves : Merkle.Digests p) :
    build.treeRoot p shake tree leaves =
      (Merkle.wholeTree p shake tree leaves 0, Merkle.wholeTree p shake tree leaves) := by
  cases build with
  | portable => exact Merkle.portableTreeRoot p shake tree leaves
  | sve2 length => exact (Merkle.sve2TreeRoot p shake tree leaves).trans (Merkle.portableTreeRoot p shake tree leaves)

theorem wholeTreeAgrees (tree tree' leaves : Merkle.Digests p) :
    ∀ n < p.layout.tree.size, Merkle.wholeTree p shake tree leaves n = Merkle.wholeTree p shake tree' leaves n := by
  refine p.layout.tree.settledUnique (Merkle.wholeTreeSettled p shake tree leaves)
    (Merkle.wholeTreeSettled p shake tree' leaves) fun n inside leaf => ?_
  obtain ⟨cnt, small, rfl⟩ := p.layout.leafNodeSurjective inside leaf
  rw [Merkle.wholeTreeLeaf p shake tree leaves small, Merkle.wholeTreeLeaf p shake tree' leaves small]

theorem treeProofAgrees (mtp : Mem) {tree tree' : Merkle.Digests p} (challenge : Mem)
    (same : ∀ n < p.layout.tree.size, tree n = tree' n) :
    Merkle.treeProof p mtp tree challenge = Merkle.treeProof p mtp tree' challenge := by
  rw [Merkle.treeProofRun, Merkle.treeProofRun]
  have nodes : ((p.layout.tree.sent (Merkle.known p.layout challenge)).map
        (LinTree.missing (Merkle.known p.layout challenge))).map tree =
      ((p.layout.tree.sent (Merkle.known p.layout challenge)).map
        (LinTree.missing (Merkle.known p.layout challenge))).map tree' := by
    refine List.map_congr_left fun n member => same n ?_
    obtain ⟨l, sent, rfl⟩ := List.mem_map.mp member
    have pair := (p.layout.tree.memPairsFrom).mp (List.mem_of_mem_filter sent)
    have right := p.layout.tree.oddRightInside pair.1 pair.2.2
    unfold LinTree.missing
    split
    · exact right
    · exact pair.2.2
  dsimp only
  rw [nodes]

theorem recomputeRootRun (tree leaves : Merkle.Digests p) (mtp challenge : Mem) :
    build.recomputeRoot p shake tree leaves mtp challenge =
      Merkle.finish p mtp (Merkle.encodeState p (Merkle.recomputed p shake tree leaves mtp challenge)) := by
  cases build with
  | portable => exact Merkle.portableRecomputeRoot p shake tree leaves mtp challenge
  | sve2 length => exact Merkle.sve2RecomputeRoot p shake tree leaves mtp challenge

theorem recomputeRootAgrees (tree tree' leaves : Merkle.Digests p) (mtp : Mem) (c : Challenge p)
    (zero : ∃ cnt < p.t, c.array cnt = 0) :
    (build.recomputeRoot p shake tree leaves mtp c.array).root =
        (Build.portable.recomputeRoot p shake tree' leaves mtp c.array).root ∧
      (build.recomputeRoot p shake tree leaves mtp c.array).accepted =
        (Build.portable.recomputeRoot p shake tree' leaves mtp c.array).accepted := by
  obtain ⟨cnt, inside, zero⟩ := zero
  rw [recomputeRootRun, recomputeRootRun]
  have start : LinTree.Alike (Merkle.initialState p tree leaves c.array) (Merkle.initialState p tree' leaves c.array) := by
    refine ⟨rfl, rfl, fun n known => ?_⟩
    by_cases leaf : n < p.layout.numNodes ∧ p.layout.tree.inner n = false
    · obtain ⟨round, small, rfl⟩ := p.layout.leafNodeSurjective leaf.1 leaf.2
      have left := (p.layout.leafLoopScatter (fun cnt _ => leaves cnt) tree).1 round small
      have right := (p.layout.leafLoopScatter (fun cnt _ => leaves cnt) tree').1 round small
      exact left.trans right.symm
    · have inner : Merkle.labels p.layout c.array n = false :=
        Merkle.labelsInner p.layout c.array fun inside => by simpa [inside] using leaf
      change Merkle.labels p.layout c.array n = true at known
      rw [inner] at known
      cases known
  have alike := p.layout.tree.recomputeAlike (Merkle.digestOf p shake) (Merkle.proofNode p mtp) start
  have flags := p.layout.tree.flaggedEnd (recomputeState p shake c tree leaves mtp).flags
  have root := flags 0 p.layout.tree.nonempty
  rw [Merkle.rootKnown p.layout inside zero] at root
  exact ⟨alike.values 0 root, congrArg (fun used => SeedTree.paddingClear p mtp used p.hashLength) alike.used⟩

theorem rebuildTreeAgrees (cells : Nat → Block p.seedLength) (indices stored : Mem) (salt : Block p.saltLength) :
    (build.rebuildTree p shake ⟨cells, []⟩ indices stored salt).restoring.nodes.cell =
        (Build.portable.rebuildTree p shake ⟨cells, []⟩ indices stored salt).restoring.nodes.cell ∧
      (build.rebuildTree p shake ⟨cells, []⟩ indices stored salt).accepted =
        (Build.portable.rebuildTree p shake ⟨cells, []⟩ indices stored salt).accepted := by
  cases build with
  | portable => exact ⟨rfl, rfl⟩
  | sve2 length =>
    obtain ⟨same, -, -, verdict⟩ := SeedTree.sve2RebuildTree p shake cells indices stored salt
    exact ⟨same, verdict⟩

def hashOne (job : HashJob) (out : Merkle.Digests p) : Merkle.Digests p :=
  Function.update out job.roundIdx (hash p shake job.input job.dsc)

theorem hashQueuedSettles {ι : Type} (job : ι → HashJob) (q : Batch.Queue ι) (fits : q.count ≤ 2)
    (out : Merkle.Digests p) :
    hashQueued p shake job q out = Batch.settle (fun i => hashOne p shake (job i)) q out := by
  unfold hashQueued
  rcases Nat.le_or_eq_of_le_succ fits with low | two
  · rcases Nat.le_one_iff_eq_zero_or_eq_one.mp low with zero | one
    · rw [Batch.settleEmpty _ zero, zero]
      rfl
    · rw [Batch.settleOne _ one, one]
      rfl
  · rw [Batch.settleTwo _ two, two]
    rfl

def hashBoth (jobs : HashJob × HashJob) (s : Commitments p) : Commitments p :=
  ⟨hashOne p shake jobs.1 s.cmt0, hashOne p shake jobs.2 s.cmt1⟩

theorem hashRoundsSettles (q : Batch.Queue (HashJob × HashJob)) (fits : q.count ≤ 2) (s : Commitments p) :
    Sve2.hashRounds p shake q s = Batch.settle (hashBoth p shake) q s := by
  rw [Sve2.hashRounds, hashQueuedSettles p shake Prod.fst q fits, hashQueuedSettles p shake Prod.snd q fits]
  have both : ∀ count, Loop.upTo count (fun k => hashBoth p shake (q.slot k)) s =
      ⟨Loop.upTo count (fun k => hashOne p shake (q.slot k).1) s.cmt0,
        Loop.upTo count (fun k => hashOne p shake (q.slot k).2) s.cmt1⟩ := by
    intro count
    induction count with
    | zero => rfl
    | succ count ih =>
      rw [Loop.upToSucc, Loop.upToSucc, Loop.upToSucc, ih]
      rfl
  exact (both q.count).symm

theorem commitRoundsAgree (salt : Block p.saltLength) (roundSeeds : Nat → Block p.seedLength) (rounds : Nat → Round p) :
    build.commitRounds p shake salt roundSeeds rounds = Portable.commitRounds p shake salt roundSeeds rounds := by
  cases build with
  | portable => rfl
  | sve2 length =>
    exact Batch.queuedRun (by decide) (hashRoundsSettles p shake) p.t
      (fun i => (signJob0 p salt rounds i, signJob1 p salt roundSeeds i)) _ _

theorem signRoundAgrees {sk : ExpandedSk p} (sound : SoundSk p sk) (salt : Block p.saltLength)
    (seed : Block p.seedLength) (i : Nat) :
    signRound p shake build sk salt seed i = signRound p shake .portable sk salt seed i := by
  unfold signRound
  dsimp only
  rw [build.normedWord p.lastFold (csprngFzInfWInGroup p shake _) sound.inW,
    build.rowsAgree p.rowsInside p.lazySum (pointwiseReduced _ _) sound.inV]

theorem respondAgrees (m : Bytes) (salt : Block p.saltLength) (seedTree : Nat → Block p.seedLength)
    (rounds : Nat → Round p) (cmt1 : Merkle.Digests p) (root : Block p.hashLength) {tree tree' : Merkle.Digests p}
    (same : ∀ n < p.layout.tree.size, tree n = tree' n) :
    respond p shake build m salt seedTree rounds cmt1 root tree =
      respond p shake .portable m salt seedTree rounds cmt1 root tree' := by
  unfold respond
  dsimp only
  rw [treeProofAgrees p Mem.zero _ same, seedPathAgrees p build]

theorem crossSignAgrees (sk : SecretKey p) (m : Bytes) (rootSeed : Block p.seedLength) (salt : Block p.saltLength)
    (tree tree' : Merkle.Digests p) :
    crossSign p shake build sk m rootSeed salt tree = crossSign p shake .portable sk m rootSeed salt tree' := by
  unfold crossSign
  dsimp only
  have rounds : ∀ roundSeeds : Nat → Block p.seedLength,
      (fun i => signRound p shake build (expandSk p shake .portable sk.seedSk) salt (roundSeeds i) i) =
        fun i => signRound p shake .portable (expandSk p shake .portable sk.seedSk) salt (roundSeeds i) i :=
    fun roundSeeds => funext fun i => signRoundAgrees p shake build (expandSkSound p shake .portable sk.seedSk) salt _ i
  rw [expandSkAgrees p shake build, genSeedTreeAgrees p shake build, rounds, commitRoundsAgree p shake build,
    treeRootWhole, treeRootWhole]
  have whole := wholeTreeAgrees p shake tree tree'
  dsimp only
  rw [whole _ 0 p.layout.tree.nonempty]
  exact respondAgrees p shake build m salt _ _ _ _ (whole _)

theorem sve2SignPortable (category : Category) (shake : Shake) (length : VectorLength)
    (sk : SecretKey category.parameters) (m : Bytes) (rootSeed : Block category.parameters.seedLength)
    (salt : Block category.parameters.saltLength) (tree tree' : Merkle.Digests category.parameters) :
    crossSign category.parameters shake (.sve2 length) sk m rootSeed salt tree =
      crossSign category.parameters shake .portable sk m rootSeed salt tree' :=
  crossSignAgrees category.parameters shake (.sve2 length) sk m rootSeed salt tree tree'

end Armor.Cross
