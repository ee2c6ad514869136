import Armor.Cross.Linearity
import Armor.Cross.PackFacts

/-! Honest signatures are accepted. The rounds with challenge 1 are recomputed from their seeds, those
with challenge 0 from their responses; either way the verifier hashes the signer's bytes. -/
namespace Armor.Cross

variable (p : Parameters) (shake : Shake)

theorem restrRows (build : Build) {k n : Nat} (inside : k ≤ n) (room : 508 + k * (508 * 508) < 2 ^ 25) {e : FzVec n}
    (inE : InGroup e) {vTr : Matrix FpElem k (n - k)} (inV : MatrixReduced vTr) (j : Fin (n - k)) :
    (build.restrVecByFpMatrix inside e vTr)[j].toNat = rowSum inside (convertRestrVecToFp e) vTr j % 509 := by
  have reduced := restrReduced inE.redundant
  cases build with
  | portable => exact portableRows reduced inV j
  | sve2 length =>
    unfold Build.restrVecByFpMatrix Sve2.restrVecByFpMatrix
    dsimp only
    rw [tableLookup inE]
    exact sve2Rows length room reduced inV j

structure HonestKey (sk : ExpandedSk p) (s : FpVec (p.n - p.k)) : Prop extends SoundSk p sk where
  word : sk.eBar = fzDzNorm (Build.portable.fzInfWByFzMatrix sk.eGBar sk.wMat)
  syndrome : ∀ j : Fin (p.n - p.k),
    s[j].toNat = rowSum p.rowsInside (convertRestrVecToFp sk.eBar) sk.vTr j % 509

theorem HonestKey.reduced {sk : ExpandedSk p} {s : FpVec (p.n - p.k)} (key : HonestKey p sk s) : Reduced s := by
  intro j
  rw [key.syndrome]
  exact Nat.mod_lt _ (by decide)

theorem keygenHonest (build : Build) (seedSk : Block p.keypairSeedLength) :
    ∃ s, (crossKeygen p shake build seedSk).2 = ⟨(seedESeedPk p shake seedSk).snd, packFpSyn p s⟩ ∧
      HonestKey p (expandSk p shake .portable seedSk) s := by
  have sound := expandSkSound p shake .portable seedSk
  refine ⟨build.restrVecByFpMatrix p.rowsInside (expandSk p shake .portable seedSk).eBar
    (expandSk p shake .portable seedSk).vTr, ?_, sound, rfl, fun j => ?_⟩
  · rw [← expandSkAgrees p shake build]
    unfold crossKeygen
    dsimp only
    rw [fpDzNormSame]
    rfl
  · exact restrRows build p.rowsInside p.lazySum sound.inE sound.inV j

theorem commitRoundsAt (salt : Block p.saltLength) (roundSeeds : Nat → Block p.seedLength) (rounds : Nat → Round p) :
    ∀ i < p.t, (Portable.commitRounds p shake salt roundSeeds rounds).cmt0 i =
        hash p shake (signJob0 p salt rounds i).input (roundHashDsc p i) ∧
      (Portable.commitRounds p shake salt roundSeeds rounds).cmt1 i =
        hash p shake (signJob1 p salt roundSeeds i).input (roundHashDsc p i) := by
  refine Loop.upToInvariant (fun count (s : Commitments p) => ∀ i < count,
    s.cmt0 i = hash p shake (signJob0 p salt rounds i).input (roundHashDsc p i) ∧
      s.cmt1 i = hash p shake (signJob1 p salt roundSeeds i).input (roundHashDsc p i))
    (fun i below => absurd below (Nat.not_lt_zero i)) fun count _ s here i below => ?_
  by_cases last : i = count
  · rw [last]
    exact ⟨Function.update_self _ _ _, Function.update_self _ _ _⟩
  · dsimp only
    rw [Function.update_of_ne last, Function.update_of_ne last]
    exact here i (by omega)

def zerosBefore (chall2 : Mem) (i : Nat) : Nat := ((Finset.range i).filter fun j => chall2 j = 0).card

theorem zerosBeforeSucc (chall2 : Mem) (i : Nat) :
    zerosBefore chall2 (i + 1) = if chall2 i = 0 then zerosBefore chall2 i + 1 else zerosBefore chall2 i := by
  unfold zerosBefore
  rw [Finset.range_add_one, Finset.filter_insert]
  split
  · rw [Finset.card_insert_of_notMem]
    intro member
    exact absurd (Finset.mem_range.mp (Finset.mem_filter.mp member).1) (Nat.lt_irrefl i)
  · rfl

theorem zerosBeforeMono (chall2 : Mem) {i j : Nat} (le : i ≤ j) : zerosBefore chall2 i ≤ zerosBefore chall2 j :=
  Finset.card_le_card (Finset.filter_subset_filter _ (Finset.range_mono le))

theorem zerosBeforeRoom {p : Parameters} (c : Challenge p) (fixed : c.weight = p.w) {i : Nat} (inside : i < p.t)
    (zero : c.array i = 0) : zerosBefore c.array i < p.t - p.w := by
  have here := zerosBeforeSucc c.array i
  rw [if_pos zero] at here
  have later := zerosBeforeMono c.array (show i + 1 ≤ p.t from inside)
  have all : zerosBefore c.array p.t = p.t - p.w := by rw [zerosBefore, c.zeros, fixed]
  omega

theorem getDSetIfInBounds {α : Type} {n i j : Nat} (v : Vector α n) (a d : α) (inside : i < n) :
    (v.setIfInBounds i a).getD j d = if i = j then a else v.getD j d := by
  have read : ∀ w : Vector α n, w.getD j d = w[j]?.getD d := by
    intro w
    unfold Vector.getD
    rw [Array.getD_eq_getD_getElem?, Vector.getElem?_toArray]
  rw [read, read, Vector.getElem?_setIfInBounds, if_pos inside]
  split <;> rfl

theorem publishedAt (c : Challenge p) (fixed : c.weight = p.w) (y : Nat → FpVec p.n) (rounds : Nat → Round p)
    (cmt1 : Merkle.Digests p) : ∀ i < p.t, c.array i = 0 →
      (publishResponses p c.array y rounds cmt1).resp0.getD (zerosBefore c.array i) (Resp0.zero p) =
          ⟨packFpVec p (y i), packFzRsdpGVec p (rounds i).vGBar⟩ ∧
        (publishResponses p c.array y rounds cmt1).resp1.getD (zerosBefore c.array i) (Block.zero _) = cmt1 i := by
  refine (Loop.upToInvariant (fun count (s : Responses p) => s.publishedRsps = zerosBefore c.array count ∧
    ∀ i < count, c.array i = 0 →
      s.resp0.getD (zerosBefore c.array i) (Resp0.zero p) = ⟨packFpVec p (y i), packFzRsdpGVec p (rounds i).vGBar⟩ ∧
        s.resp1.getD (zerosBefore c.array i) (Block.zero _) = cmt1 i)
    ⟨rfl, fun i below => absurd below (Nat.not_lt_zero i)⟩ fun count inside s here => ?_).2
  obtain ⟨published, written⟩ := here
  by_cases zero : c.array count = 0
  · have room := zerosBeforeRoom c fixed inside zero
    rw [if_pos zero, zerosBeforeSucc, if_pos zero]
    refine ⟨congrArg Nat.succ published, fun i below own => ?_⟩
    dsimp only
    rw [published, getDSetIfInBounds _ _ _ room, getDSetIfInBounds _ _ _ room]
    by_cases last : i = count
    · rw [last, if_pos rfl, if_pos rfl]
      exact ⟨rfl, rfl⟩
    · have earlier : zerosBefore c.array count ≠ zerosBefore c.array i := by
        have next := zerosBeforeSucc c.array i
        have le := zerosBeforeMono c.array (show i + 1 ≤ count by omega)
        rw [if_pos own] at next
        omega
      rw [if_neg earlier, if_neg earlier]
      exact written i (by omega) own
  · rw [if_neg zero, zerosBeforeSucc, if_neg zero]
    refine ⟨published, fun i below own => written i ?_ own⟩
    have other : i ≠ count := fun same => zero (same ▸ own)
    omega

section Rounds

variable {p shake} {sk : ExpandedSk p} {s : FpVec (p.n - p.k)} {o : Opening p} {sig : CrossSig p} {c : Challenge p}
  {salt : Block p.saltLength} {seeds : Nat → Block p.seedLength}

structure HonestOpening (sk : ExpandedSk p) (s : FpVec (p.n - p.k)) (seeds : Nat → Block p.seedLength) (c : Challenge p)
    (o : Opening p) : Prop where
  pk : o.toExpandedPk = sk.toExpandedPk
  syndrome : o.s = s
  low : ∀ i, (chall1At p o.chall1 i).toNat < 512
  array : o.chall2 = c.array
  seed : ∀ i < p.t, c.array i = 1 → o.roundSeeds i = seeds i

def honestRounds (shake : Shake) (sk : ExpandedSk p) (salt : Block p.saltLength) (seeds : Nat → Block p.seedLength)
    (i : Nat) : Round p :=
  signRound p shake .portable sk salt (seeds i) i

theorem honestReopen (honest : HonestOpening sk s seeds c o) {i : Nat} (inside : i < p.t) (one : c.array i = 1) :
    reopenRound p shake .portable o salt i = firstResponse p o.chall1 (honestRounds shake sk salt seeds) i := by
  unfold reopenRound firstResponse honestRounds signRound
  rw [honest.pk, honest.seed i inside one]

theorem honestGroup (key : HonestKey p sk s) (i : Nat) : InGroup (honestRounds shake sk salt seeds i).vGBar :=
  fzDzNormInGroup (fzVecSubRedundant key.inG.redundant (csprngFzInfWInGroup p shake _).redundant)

theorem honestResponse (key : HonestKey p sk s) (honest : HonestOpening sk s seeds c o) (i : Nat) :
    ∀ j : Fin p.n, (firstResponse p o.chall1 (honestRounds shake sk salt seeds) i)[j].toNat < 512 := by
  intro j
  have word := Build.portable.word p.lastFold (csprngFzInfWInGroup p shake (csprngInitialize
    (SeedTree.csprngInput p (seeds i) salt) (roundCsprngDsc p i))) key.inW
  have scaled := scaledEntry (fzDzNormInGroup word.1).redundant (honest.low i) (csprngFpVecReduced p shake
    (csprngFzInfW p shake (csprngInitialize (SeedTree.csprngInput p (seeds i) salt) (roundCsprngDsc p i))).2) j
  unfold firstResponse
  rw [fpDzNormSame]
  exact Nat.lt_trans scaled.1 (by decide)

theorem honestSyndrome (key : HonestKey p sk s) (honest : HonestOpening sk s seeds c o) (i : Nat) :
    responseSyndrome p .portable o i (firstResponse p o.chall1 (honestRounds shake sk salt seeds) i)
      (honestRounds shake sk salt seeds i).vGBar = (honestRounds shake sk salt seeds i).sPrime := by
  have syndrome := key.syndrome
  rw [key.word] at syndrome
  have restored := responseRestores p.lastFold p.lazySum key.inW key.inV key.inG
    (csprngFzInfWInGroup p shake (csprngInitialize (SeedTree.csprngInput p (seeds i) salt) (roundCsprngDsc p i)))
    (csprngFpVecReduced p shake (csprngFzInfW p shake (csprngInitialize (SeedTree.csprngInput p (seeds i) salt)
      (roundCsprngDsc p i))).2) (honest.low i) syndrome
  unfold responseSyndrome firstResponse honestRounds signRound
  dsimp only
  rw [fpDzNormSame, fpDzNormSame, fpDzNormSame, fpDzNormSame, honest.pk, honest.syndrome, key.word]
  exact restored

theorem honestPacked (key : HonestKey p sk s) (i : Nat) :
    unpackFzRsdpGVec p (packFzRsdpGVec p (honestRounds shake sk salt seeds i).vGBar) =
      ((honestRounds shake sk salt seeds i).vGBar, true) := by
  have inG := @honestGroup p shake sk s salt seeds key i
  have small : ∀ j : Fin p.m, (honestRounds shake sk salt seeds i).vGBar[j].toNat < 128 := fun j =>
    Nat.lt_trans (inG j) (by decide)
  exact unpackFzRsdpGVecPacked p small

structure Answers (shake : Shake) (c : Challenge p) (o : Opening p) (sig : CrossSig p) (y : Nat → FpVec p.n)
    (vGBar : Nat → FzVec p.m) (cmts : Commitments p) : Prop where
  array : o.chall2 = c.array
  reopened : ∀ i < p.t, c.array i = 1 → reopenRound p shake .portable o sig.salt i = y i
  opened : ∀ i < p.t, c.array i = 1 →
    hash p shake (verifyJob1 p o sig i).input (roundHashDsc p i) = cmts.cmt1 i
  unpackedY : ∀ i < p.t, c.array i = 0 →
    unpackFpVec p (resp0At p sig (zerosBefore c.array i)).y = (y i, true)
  unpackedVGBar : ∀ i < p.t, c.array i = 0 →
    unpackFzRsdpGVec p (resp0At p sig (zerosBefore c.array i)).vGBar = (vGBar i, true)
  inGroup : ∀ i < p.t, c.array i = 0 → InGroup (vGBar i)
  answered : ∀ i < p.t, c.array i = 0 →
    hash p shake (verifyJob0 p .portable o sig i (zerosBefore c.array i) (y i) (vGBar i)).input (roundHashDsc p i) =
      cmts.cmt0 i
  kept : ∀ i < p.t, c.array i = 0 → resp1At p sig (zerosBefore c.array i) = cmts.cmt1 i

structure Behind (c : Challenge p) (y : Nat → FpVec p.n) (cmts : Commitments p) (i : Nat) (v : VerifyState p) : Prop where
  padd : v.isPackedPaddOk = true
  group : v.isSignatureOk = true
  used : v.usedRsps = zerosBefore c.array i
  responses : ∀ j < i, v.y j = y j
  opened : ∀ j < i, v.cmts.cmt1 j = cmts.cmt1 j
  answered : ∀ j < i, c.array j = 0 → v.cmts.cmt0 j = cmts.cmt0 j

theorem extendBelow {α : Type} {f g : Nat → α} {i : Nat} {a : α} (before : ∀ j < i, f j = g j) (here : a = g i) :
    ∀ j < i + 1, Function.update f i a j = g j := by
  intro j below
  by_cases last : j = i
  · rw [last, Function.update_self, here]
  · rw [Function.update_of_ne last]
    exact before j (by omega)

theorem roundBehind {y : Nat → FpVec p.n} {vGBar : Nat → FzVec p.m} {cmts : Commitments p}
    (answers : Answers shake c o sig y vGBar cmts) {i : Nat} (inside : i < p.t) {v : VerifyState p}
    (behind : Behind c y cmts i v) : Behind c y cmts (i + 1) (Portable.verifyRound p shake o sig i v) := by
  have rank := zerosBeforeSucc c.array i
  unfold Portable.verifyRound
  rw [answers.array]
  by_cases one : c.array i = 1
  · have other : c.array i ≠ 0 := by
      rw [one]
      decide
    rw [if_neg other] at rank
    rw [if_pos one]
    have earlier : ∀ j < i + 1, c.array j = 0 → j < i := by
      intro j below zero
      have differ : j ≠ i := fun same => other (same ▸ zero)
      omega
    exact ⟨behind.padd, behind.group, behind.used.trans rank.symm,
      extendBelow behind.responses (answers.reopened i inside one),
      extendBelow behind.opened (answers.opened i inside one),
      fun j below zero => behind.answered j (earlier j below zero) zero⟩
  · have zero := (c.arrayBinary i inside).resolve_right one
    rw [if_pos zero] at rank
    rw [if_neg one]
    dsimp only
    rw [behind.used, answers.unpackedY i inside zero, answers.unpackedVGBar i inside zero]
    refine ⟨?_, ?_, rank.symm, extendBelow behind.responses rfl, extendBelow behind.opened (answers.kept i inside zero),
      fun j below own => ?_⟩
    · rw [behind.padd]
      rfl
    · rw [behind.group, (inGroupCheck _).mpr (answers.inGroup i inside zero)]
      rfl
    · dsimp only
      by_cases last : j = i
      · rw [last, Function.update_self]
        exact answers.answered i inside zero
      · rw [Function.update_of_ne last]
        exact behind.answered j (by omega) own

theorem roundsBehind {y : Nat → FpVec p.n} {vGBar : Nat → FzVec p.m} {cmts : Commitments p}
    (answers : Answers shake c o sig y vGBar cmts) (y0 : Nat → FpVec p.n) :
    Behind c y cmts p.t (Portable.verifyRounds p shake o sig y0) := by
  have start : Behind c y cmts 0 ⟨y0, Commitments.zero p, 0, true, true⟩ :=
    ⟨rfl, rfl, rfl, fun j below => absurd below (Nat.not_lt_zero j), fun j below => absurd below (Nat.not_lt_zero j),
      fun j below => absurd below (Nat.not_lt_zero j)⟩
  exact Loop.upToInvariant (fun i v => Behind c y cmts i v) start fun i inside v behind =>
    roundBehind answers inside behind

theorem honestAnswers (key : HonestKey p sk s) (honest : HonestOpening sk s seeds c o) (fixed : c.weight = p.w)
    (salted : sig.salt = salt)
    (resp0 : sig.resp0 = (publishResponses p c.array (firstResponse p o.chall1 (honestRounds shake sk salt seeds))
      (honestRounds shake sk salt seeds)
      (Portable.commitRounds p shake salt seeds (honestRounds shake sk salt seeds)).cmt1).resp0)
    (resp1 : sig.resp1 = (publishResponses p c.array (firstResponse p o.chall1 (honestRounds shake sk salt seeds))
      (honestRounds shake sk salt seeds)
      (Portable.commitRounds p shake salt seeds (honestRounds shake sk salt seeds)).cmt1).resp1) :
    Answers shake c o sig (firstResponse p o.chall1 (honestRounds shake sk salt seeds))
      (fun i => (honestRounds shake sk salt seeds i).vGBar)
      (Portable.commitRounds p shake salt seeds (honestRounds shake sk salt seeds)) := by
  have signed := commitRoundsAt p shake salt seeds (honestRounds shake sk salt seeds)
  have published := publishedAt p c fixed (firstResponse p o.chall1 (honestRounds shake sk salt seeds))
    (honestRounds shake sk salt seeds) (Portable.commitRounds p shake salt seeds (honestRounds shake sk salt seeds)).cmt1
  rw [← resp0, ← resp1] at published
  have carried : ∀ i < p.t, c.array i = 0 → resp0At p sig (zerosBefore c.array i) =
      ⟨packFpVec p (firstResponse p o.chall1 (honestRounds shake sk salt seeds) i),
        packFzRsdpGVec p (honestRounds shake sk salt seeds i).vGBar⟩ := fun i inside zero => (published i inside zero).1
  refine ⟨honest.array, fun i inside one => ?_, fun i inside one => ?_, fun i inside zero => ?_,
    fun i inside zero => ?_, fun i _ _ => honestGroup key i, fun i inside zero => ?_,
    fun i inside zero => (published i inside zero).2⟩
  · rw [salted]
    exact honestReopen honest inside one
  · rw [(signed i inside).2, verifyJob1, honest.seed i inside one, salted]
    rfl
  · rw [carried i inside zero]
    exact unpackFpVecPacked p (honestResponse key honest i)
  · rw [carried i inside zero]
    exact honestPacked key i
  · rw [(signed i inside).1, verifyJob0, honestSyndrome key honest, carried i inside zero, salted]
    rfl

end Rounds

theorem storedBlock (m : Mem) {len a : Nat} (inside : a < len) : Mem.ofBlock (m.block 0 len) a = m a := by
  rw [Mem.ofBlockAt _ inside, Mem.blockAt inside, Nat.zero_add]

theorem pathReopens (c : Challenge p) (fixed : c.weight = p.w) (zero : ∃ cnt < p.t, c.array cnt = 0)
    (rootSeed : Block p.seedLength) (salt : Block p.saltLength) (signerTree : Slots (Block p.seedLength))
    (cells seeds : Nat → Block p.seedLength) :
    let tree := Build.portable.genSeedTree p shake signerTree rootSeed salt
    let path := SeedTree.seedPath p Build.portable.computeSeedsToPublish Mem.zero tree.cell c.array
    let rebuilt := Build.portable.rebuildTree p shake ⟨cells, []⟩ c.array
      (Mem.ofBlock (path.storage.block 0 (p.treeNodesToStore * p.seedLength))) salt
    rebuilt.accepted = true ∧ ∀ i < p.t, c.array i = 1 →
      SeedTree.seedLeaves p seeds rebuilt.restoring.nodes.cell i = SeedTree.seedLeaves p seeds tree.cell i := by
  intro tree path rebuilt
  let build : Build := .sve2 ⟨1, Nat.one_pos⟩
  have grown : tree = SeedTree.Sve2.genSeedTree p shake signerTree rootSeed salt :=
    (genSeedTreeAgrees p shake build signerTree rootSeed salt).symm
  have published : path = SeedTree.seedPath p SeedTree.Sve2.computeSeedsToPublish Mem.zero tree.cell c.array :=
    (seedPathAgrees p build Mem.zero tree.cell c.array).symm
  have agrees := rebuildTreeAgrees p shake build cells c.array
    (Mem.ofBlock (path.storage.block 0 (p.treeNodesToStore * p.seedLength))) salt
  have reads := rebuildReads p shake c fixed cells salt (fun a inside => storedBlock path.storage inside)
  have accepted := pathAccepted p shake c tree.cell ⟨cells, []⟩ salt
  have restores := pathRestores p shake c zero rootSeed salt signerTree ⟨cells, []⟩ seeds seeds
  dsimp only at accepted restores
  rw [← grown, ← published] at restores
  rw [← published] at accepted
  refine ⟨(agrees.2.symm.trans reads.2).trans accepted, fun i inside one => ?_⟩
  have same : rebuilt.restoring.nodes.cell = _ := agrees.1.symm.trans reads.1
  rw [same]
  exact restores i inside one

theorem proofReopens (c : Challenge p) (fixed : c.weight = p.w) (zero : ∃ cnt < p.t, c.array cnt = 0)
    (commitments recomputed : Merkle.Digests p) (agree : ∀ cnt < p.t, c.array cnt = 0 → recomputed cnt = commitments cnt)
    (signerTree verifierTree : Merkle.Digests p) :
    let built := Build.portable.treeRoot p shake signerTree commitments
    let proof := Merkle.treeProof p Mem.zero built.2 c.array
    let result := Build.portable.recomputeRoot p shake verifierTree recomputed
      (Mem.ofBlock (proof.mtp.block 0 (p.treeNodesToStore * p.hashLength))) c.array
    result.accepted = true ∧ result.root = built.1 := by
  intro built proof result
  have whole : built = _ := treeRootWhole p shake .portable signerTree commitments
  have sve2 : result = Merkle.Sve2.recomputeRoot p shake verifierTree recomputed proof.mtp c.array := by
    rw [← recomputeReads p shake c fixed verifierTree recomputed (fun a inside => storedBlock proof.mtp inside)]
    exact (recomputeRootRun p shake .portable verifierTree recomputed _ c.array).trans
      (recomputeRootRun p shake (.sve2 ⟨1, Nat.one_pos⟩) verifierTree recomputed _ c.array).symm
  have accepted := proofAccepted p shake c built.2 verifierTree recomputed
  have restores := proofRestores p shake c zero commitments recomputed agree signerTree verifierTree
  rw [sve2]
  refine ⟨accepted, ?_⟩
  change (Merkle.Sve2.recomputeRoot p shake verifierTree recomputed (Merkle.treeProof p Mem.zero built.2 c.array).mtp
    c.array).root = built.1
  rw [whole]
  exact restores

theorem chall1Low (digest : Block p.hashLength) (i : Nat) : (chall1At p (expandChall1 p shake digest) i).toNat < 512 := by
  have reduced : Reduced (expandChall1 p shake digest) := by
    intro j
    exact of_decide_eq_true (@belowBoundAdmitted FpElem p.t bitsForPMOne (fun candidate => (candidate + 1).toUInt16)
      (fun x => decide (x.toNat < P)) _ _ _ _ _ j)
  unfold chall1At Vector.getD
  rw [Array.getD_eq_getD_getElem?, Vector.getElem?_toArray]
  by_cases inside : i < p.t
  · rw [Vector.getElem?_eq_getElem inside]
    exact Nat.lt_trans (reduced ⟨i, inside⟩) (by decide)
  · rw [Vector.getElem?_eq_none (Nat.le_of_not_lt inside)]
    decide

theorem portableComplete {seedSk : Block p.keypairSeedLength} {s : FpVec (p.n - p.k)}
    (key : HonestKey p (expandSk p shake .portable seedSk) s) (m : Bytes) (rootSeed : Block p.seedLength)
    (salt : Block p.saltLength) (merkleTree0 tree : Merkle.Digests p) (y : Nat → FpVec p.n) :
    Portable.crossVerify p shake ⟨(seedESeedPk p shake seedSk).snd, packFpSyn p s⟩ m
      (crossSign p shake .portable ⟨seedSk⟩ m rootSeed salt merkleTree0) tree y = true := by
  let sk := expandSk p shake .portable seedSk
  let seedTree := (Build.portable.genSeedTree p shake ⟨fun _ => Block.zero _, []⟩ rootSeed salt).cell
  let seeds := SeedTree.seedLeaves p (fun _ => Block.zero _) seedTree
  let rounds := honestRounds shake sk salt seeds
  let cmts := Portable.commitRounds p shake salt seeds rounds
  let built := Build.portable.treeRoot p shake merkleTree0 cmts.cmt0
  let sig := respond p shake .portable m salt seedTree rounds cmts.cmt1 built.1 built.2
  let o := openSignature p shake .portable ⟨(seedESeedPk p shake seedSk).snd, packFpSyn p s⟩ m sig
  have signed : crossSign p shake .portable ⟨seedSk⟩ m rootSeed salt merkleTree0 = sig := rfl
  rw [signed]
  let c := challengeOf p shake sig.digestChall2
  have fixed := challengeOfWeight p shake sig.digestChall2
  have zero := challengeOfZero p shake sig.digestChall2
  have array : c.array = expandDigestToFixedWeight p shake sig.digestChall2 := challengeOfArray p shake sig.digestChall2
  have unpackedS := unpackFpSynPacked p fun j => Nat.lt_trans (key.reduced p j) (by decide : 509 < 512)
  have reopened := pathReopens p shake c fixed zero rootSeed salt ⟨fun _ => Block.zero _, []⟩ (fun _ => Block.zero _)
    (fun _ => Block.zero _)
  rw [array] at reopened
  have honest : HonestOpening sk s seeds c o :=
    ⟨rfl, congrArg Prod.fst unpackedS, chall1Low p shake o.digest1, array.symm, fun i inside one =>
      reopened.2 i inside (array ▸ one)⟩
  have answers := @honestAnswers p shake sk s o sig c salt seeds key honest fixed rfl (by rw [array]; rfl)
    (by rw [array]; rfl)
  have behind := roundsBehind answers y
  have proved := proofReopens p shake c fixed zero cmts.cmt0 (Portable.verifyRounds p shake o sig y).cmts.cmt0
    (fun i inside none_ => behind.answered i inside none_) merkleTree0 tree
  have digests : contiguous p (Portable.verifyRounds p shake o sig y).cmts.cmt1 = contiguous p cmts.cmt1 :=
    contiguousCongr p behind.opened
  have responses := digestChall2Congr p shake behind.responses o.digest1
  rw [array] at proved
  let recomputed := Build.portable.recomputeRoot p shake tree (Portable.verifyRounds p shake o sig y).cmts.cmt0
    (Mem.ofBlock sig.proof) o.chall2
  have accepted : recomputed.accepted = true := proved.1
  have root : recomputed.root = built.1 := proved.2
  have digestCmt : digestCommitments p shake recomputed.root (Portable.verifyRounds p shake o sig y).cmts.cmt1 =
      sig.digestCmt := by
    unfold digestCommitments
    rw [digests, root]
    rfl
  have digest2 : digestChall2 p shake (Portable.verifyRounds p shake o sig y).y o.digest1 = sig.digestChall2 := responses
  have path : o.isStreePaddingOk = true := reopened.1
  have padding : o.isPaddKeyOk = true := congrArg Prod.snd unpackedS
  change verdict p shake .portable o sig (Portable.verifyRounds p shake o sig y) tree = true
  unfold verdict
  change ((Portable.verifyRounds p shake o sig y).isSignatureOk &&
    decide (digestCommitments p shake recomputed.root (Portable.verifyRounds p shake o sig y).cmts.cmt1 = sig.digestCmt) &&
    decide (digestChall2 p shake (Portable.verifyRounds p shake o sig y).y o.digest1 = sig.digestChall2) &&
    recomputed.accepted && o.isStreePaddingOk && o.isPaddKeyOk &&
    (Portable.verifyRounds p shake o sig y).isPackedPaddOk) = true
  rw [behind.group, behind.padd, decide_eq_true digestCmt, decide_eq_true digest2, accepted, path, padding]
  rfl

theorem sve2Complete (category : Category) (shake : Shake) (length : VectorLength)
    (seedSk : Block category.parameters.keypairSeedLength) (m : Bytes) (rootSeed : Block category.parameters.seedLength)
    (salt : Block category.parameters.saltLength) (merkleTree0 tree : Merkle.Digests category.parameters)
    (unwritten : Sve2.Unwritten category.parameters) :
    let p := category.parameters
    let keys := crossKeygen p shake (.sve2 length) seedSk
    Sve2.crossVerify p shake length keys.2 m (crossSign p shake (.sve2 length) keys.1 m rootSeed salt merkleTree0) tree
      unwritten = true := by
  intro p keys
  obtain ⟨s, published, key⟩ := keygenHonest p shake (.sve2 length) seedSk
  have secret : keys.1 = ⟨seedSk⟩ := rfl
  have public_ : keys.2 = _ := published
  rw [crossSignAgrees p shake (.sve2 length) keys.1 m rootSeed salt merkleTree0 merkleTree0, secret, public_]
  exact (crossVerifyAgrees p shake length _ m _ tree tree (fun _ => Vector.replicate _ 0) unwritten).mpr
    (portableComplete p shake key m rootSeed salt merkleTree0 tree _)

end Armor.Cross
