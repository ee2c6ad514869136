import Armor.Cross.Canonical
import Armor.Cross.Completeness
import Armor.Lib.Opening

/-! What `CROSS_verify` accepts, without its loops, its queues and its flags: a signature for which
there is a transcript that every part of it explains. -/
namespace Armor.Cross

variable (p : Parameters) (shake : Shake)

structure Transcript where
  s : FpVec (p.n - p.k)
  seed : Nat → Block p.seedLength
  digest : Merkle.Digests p
  cmts : Commitments p
  y : Nat → FpVec p.n
  vGBar : Nat → FzVec p.m

def Transcript.opening (pk : PublicKey p) (m : Bytes) (sig : CrossSig p) (tr : Transcript p) : Opening p :=
  let digest1 := digestChall1 p shake m sig.digestCmt sig.salt
  { expandPk p shake pk.seedPk with
    s := tr.s
    isPaddKeyOk := true
    digest1 := digest1
    chall1 := expandChall1 p shake digest1
    chall2 := expandDigestToFixedWeight p shake sig.digestChall2
    roundSeeds := fun i => tr.seed (p.layout.leafNode i)
    isStreePaddingOk := true }

/-- Every part of a key and a signature is what the transcript makes it: the encodings, the path, the
proof, the rounds with challenge 1, those with challenge 0, and both digests. -/
structure Explains (pk : PublicKey p) (sig : CrossSig p) (tr : Transcript p) (o : Opening p) : Prop where
  key : packFpSyn p tr.s = pk.s
  keyRange : ∀ j : Fin (p.n - p.k), tr.s[j].toNat < 512
  path : p.layout.tree.Disclosed (SeedTree.children p shake sig.salt) (SeedTree.published p.layout o.chall2)
    (SeedTree.storedSeed p (Mem.ofBlock sig.path)) tr.seed
  pathRest : ∀ a, (p.layout.tree.tops (SeedTree.published p.layout o.chall2)).length * p.seedLength ≤ a →
    a < p.treeNodesToStore * p.seedLength → Mem.ofBlock sig.path a = 0
  proof : p.layout.tree.Authentic (Merkle.digestOf p shake) (Merkle.known p.layout o.chall2)
    (Merkle.placeCmtOnLeaves p (fun _ => Block.zero _) tr.cmts.cmt0) (Merkle.proofNode p (Mem.ofBlock sig.proof)) tr.digest
  proofRest : ∀ a, p.layout.tree.mixedCount (Merkle.known p.layout o.chall2) * p.hashLength ≤ a →
    a < p.treeNodesToStore * p.hashLength → Mem.ofBlock sig.proof a = 0
  reopened : ∀ i < p.t, o.chall2 i = 1 → reopenRound p shake .portable o sig.salt i = tr.y i
  opened : ∀ i < p.t, o.chall2 i = 1 →
    hash p shake (cmt1Input p (o.roundSeeds i) sig.salt) (roundHashDsc p i) = tr.cmts.cmt1 i
  responded : ∀ i < p.t, o.chall2 i = 0 →
    resp0At p sig (zerosBefore o.chall2 i) = ⟨packFpVec p (tr.y i), packFzRsdpGVec p (tr.vGBar i)⟩
  range : ∀ i < p.t, o.chall2 i = 0 → ∀ j : Fin p.n, (tr.y i)[j].toNat < 512
  inGroup : ∀ i < p.t, o.chall2 i = 0 → InGroup (tr.vGBar i)
  answered : ∀ i < p.t, o.chall2 i = 0 →
    hash p shake (cmt0Input p (responseSyndrome p .portable o i (tr.y i) (tr.vGBar i))
      (packFzRsdpGVec p (tr.vGBar i)) sig.salt) (roundHashDsc p i) = tr.cmts.cmt0 i
  kept : ∀ i < p.t, o.chall2 i = 0 → resp1At p sig (zerosBefore o.chall2 i) = tr.cmts.cmt1 i
  digestCmt : digestCommitments p shake (tr.digest 0) tr.cmts.cmt1 = sig.digestCmt
  digestChall2 : digestChall2 p shake tr.y o.digest1 = sig.digestChall2

def Acceptable (pk : PublicKey p) (m : Bytes) (sig : CrossSig p) : Prop :=
  ∃ tr : Transcript p, Explains p shake pk sig tr (tr.opening p shake pk m sig)

variable {p}

section Trees

variable (c : Challenge p)

theorem rebuiltDisclosed (cells : Nat → Block p.seedLength) (stored : Mem) (salt : Block p.saltLength) :
    p.layout.tree.Disclosed (SeedTree.children p shake salt) (SeedTree.published p.layout c.array)
      (SeedTree.storedSeed p stored) (Build.portable.rebuildTree p shake ⟨cells, []⟩ c.array stored salt).restoring.nodes.cell := by
  have run := p.layout.tree.restoreRun (SeedTree.children p shake salt) (SeedTree.storedSeed p stored)
    (SeedTree.publishedMarked p.layout c.array) ⟨cells, []⟩
  rw [← SeedTree.portableRebuildTree p shake ⟨cells, []⟩ c.array stored salt] at run
  exact p.layout.tree.restoredDisclosed run

theorem rebuiltAccepted (cells : Nat → Block p.seedLength) (stored : Mem) (salt : Block p.saltLength) :
    (Build.portable.rebuildTree p shake ⟨cells, []⟩ c.array stored salt).accepted = true ↔
      ∀ a, (p.layout.tree.tops (SeedTree.published p.layout c.array)).length * p.seedLength ≤ a →
        a < p.treeNodesToStore * p.seedLength → stored a = 0 := by
  have same := (SeedTree.sve2RebuildTree p shake cells c.array stored salt).2.2.2
  change (SeedTree.Portable.rebuildTree p shake ⟨cells, []⟩ c.array stored salt).accepted = true ↔ _
  rw [← same]
  exact rebuildAccepted p shake c ⟨cells, []⟩ stored salt

theorem rootRecomputed (tree leaves : Merkle.Digests p) (mtp : Mem) :
    ∃ digest, p.layout.tree.Authentic (Merkle.digestOf p shake) (Merkle.known p.layout c.array)
        (Merkle.placeCmtOnLeaves p tree leaves) (Merkle.proofNode p mtp) digest ∧
      ((∃ cnt < p.t, c.array cnt = 0) →
        (Build.portable.recomputeRoot p shake tree leaves mtp c.array).root = digest 0) := by
  obtain ⟨digest, authentic, values⟩ := p.layout.tree.recomputeAuthentic (Merkle.digestOf p shake) (Merkle.proofNode p mtp)
    (Merkle.initialState p tree leaves c.array) (Merkle.knownSettled p.layout c.array)
    (fun _ _ leaf => (Merkle.knownLabels p.layout c.array leaf).symm)
    (fun _ _ isInner => Merkle.labelsInner p.layout c.array fun _ => isInner) ⟨rfl, rfl⟩
  refine ⟨digest, authentic, ?_⟩
  rintro ⟨cnt, inside, zero⟩
  change (Merkle.Portable.recomputeRoot p shake tree leaves mtp c.array).root = digest 0
  rw [Merkle.portableRecomputeRoot]
  exact values 0 (Merkle.rootKnown p.layout inside zero)

theorem rootAccepted (tree leaves : Merkle.Digests p) (mtp : Mem) :
    (Build.portable.recomputeRoot p shake tree leaves mtp c.array).accepted = true ↔
      ∀ a, p.layout.tree.mixedCount (Merkle.known p.layout c.array) * p.hashLength ≤ a →
        a < p.treeNodesToStore * p.hashLength → mtp a = 0 := by
  rw [← recomputeAccepted p shake c tree leaves mtp]
  change (Merkle.Portable.recomputeRoot p shake tree leaves mtp c.array).accepted = true ↔ _
  rw [Merkle.portableRecomputeRoot, Merkle.sve2RecomputeRoot]

theorem leavesAgree {tree tree' leaves leaves' : Merkle.Digests p}
    (same : ∀ cnt < p.t, c.array cnt = 0 → leaves cnt = leaves' cnt) :
    ∀ n < p.layout.numNodes, p.layout.tree.inner n = false → Merkle.known p.layout c.array n = true →
      Merkle.placeCmtOnLeaves p tree leaves n = Merkle.placeCmtOnLeaves p tree' leaves' n := by
  intro n inside leaf own
  obtain ⟨cnt, small, rfl⟩ := p.layout.leafNodeSurjective inside leaf
  rw [Merkle.knownLeaf p.layout _ small, beq_iff_eq] at own
  have here := (p.layout.leafLoopScatter (fun cnt _ => leaves cnt) tree).1 cnt small
  have there := (p.layout.leafLoopScatter (fun cnt _ => leaves' cnt) tree').1 cnt small
  exact here.trans ((same cnt small own).trans there.symm)

end Trees

section Rounds

variable {o : Opening p} {sig : CrossSig p} {c : Challenge p}

structure Passed (sig : CrossSig p) (c : Challenge p) (i : Nat) (v : VerifyState p) : Prop where
  used : v.usedRsps = zerosBefore c.array i
  padd : v.isPackedPaddOk = true → ∀ j < i, c.array j = 0 →
    (unpackFpVec p (resp0At p sig (zerosBefore c.array j)).y).2 = true ∧
      (unpackFzRsdpGVec p (resp0At p sig (zerosBefore c.array j)).vGBar).2 = true
  group : v.isSignatureOk = true → ∀ j < i, c.array j = 0 →
    InGroup (unpackFzRsdpGVec p (resp0At p sig (zerosBefore c.array j)).vGBar).1

theorem extendPassed {P : Nat → Prop} {i : Nat} (before : ∀ j < i, c.array j = 0 → P j) (here : c.array i = 0 → P i) :
    ∀ j < i + 1, c.array j = 0 → P j := by
  intro j below zero
  by_cases last : j = i
  · subst last
    exact here zero
  · exact before j (by omega) zero

theorem roundPassed (array : o.chall2 = c.array) {i : Nat} (inside : i < p.t) {v : VerifyState p} (passed : Passed sig c i v) :
    Passed sig c (i + 1) (Portable.verifyRound p shake o sig i v) := by
  have rank := zerosBeforeSucc c.array i
  unfold Portable.verifyRound
  rw [array]
  by_cases one : c.array i = 1
  · have other : c.array i ≠ 0 := by
      rw [one]
      decide
    rw [if_neg other] at rank
    rw [if_pos one]
    exact ⟨passed.used.trans rank.symm, fun ok => extendPassed (passed.padd ok) fun zero => absurd zero other,
      fun ok => extendPassed (passed.group ok) fun zero => absurd zero other⟩
  · have zero := (c.arrayBinary i inside).resolve_right one
    rw [if_pos zero] at rank
    rw [if_neg one]
    dsimp only
    rw [passed.used]
    refine ⟨rank.symm, fun ok => ?_, fun ok => ?_⟩
    · obtain ⟨before, vGBar⟩ := Bool.and_eq_true_iff.mp ok
      obtain ⟨before, y⟩ := Bool.and_eq_true_iff.mp before
      exact extendPassed (passed.padd before) fun _ => ⟨y, vGBar⟩
    · obtain ⟨before, group⟩ := Bool.and_eq_true_iff.mp ok
      exact extendPassed (passed.group before) fun _ => (inGroupCheck _).mp group

theorem roundsPassed (array : o.chall2 = c.array) (y0 : Nat → FpVec p.n) :
    Passed sig c p.t (Portable.verifyRounds p shake o sig y0) := by
  have start : Passed sig c 0 ⟨y0, Commitments.zero p, 0, true, true⟩ :=
    ⟨rfl, fun _ j below => absurd below (Nat.not_lt_zero j), fun _ j below => absurd below (Nat.not_lt_zero j)⟩
  exact Loop.upToInvariant (fun i v => Passed sig c i v) start fun i inside v passed => roundPassed shake array inside passed

variable (p) (o sig)

def readVGBar (i : Nat) : FzVec p.m := (unpackFzRsdpGVec p (resp0At p sig (zerosBefore o.chall2 i)).vGBar).1

def readY (i : Nat) : FpVec p.n :=
  if o.chall2 i = 1 then reopenRound p shake .portable o sig.salt i
  else (unpackFpVec p (resp0At p sig (zerosBefore o.chall2 i)).y).1

def readCmt0 (i : Nat) : Block p.hashLength :=
  hash p shake (verifyJob0 p .portable o sig i (zerosBefore o.chall2 i) (readY p shake o sig i) (readVGBar p o sig i)).input
    (roundHashDsc p i)

def readCmt1 (i : Nat) : Block p.hashLength :=
  if o.chall2 i = 1 then hash p shake (verifyJob1 p o sig i).input (roundHashDsc p i)
  else resp1At p sig (zerosBefore o.chall2 i)

variable {p} {o sig}

theorem passedAnswers (array : o.chall2 = c.array) {v : VerifyState p} (passed : Passed sig c p.t v)
    (padd : v.isPackedPaddOk = true) (group : v.isSignatureOk = true) :
    Answers shake c o sig (readY p shake o sig) (readVGBar p o sig) ⟨readCmt0 p shake o sig, readCmt1 p shake o sig⟩ := by
  have zeroNotOne : ∀ i, c.array i = 0 → ¬ c.array i = 1 := by
    intro i zero one
    rw [zero] at one
    exact absurd one (by decide)
  refine ⟨array, fun i _ one => ?_, fun i _ one => ?_, fun i inside zero => ?_, fun i inside zero => ?_,
    fun i inside zero => ?_, fun i _ zero => ?_, fun i _ zero => ?_⟩
  · rw [readY, array, if_pos one]
  · dsimp only
    rw [readCmt1, array, if_pos one]
  · rw [readY, array, if_neg (zeroNotOne i zero)]
    exact Prod.ext rfl (passed.padd padd i inside zero).1
  · rw [readVGBar, array]
    exact Prod.ext rfl (passed.padd padd i inside zero).2
  · rw [readVGBar, array]
    exact passed.group group i inside zero
  · rw [← array]
    rfl
  · dsimp only
    rw [readCmt1, array, if_neg (zeroNotOne i zero)]

end Rounds

structure SameOpening (o o' : Opening p) : Prop where
  pk : o.toExpandedPk = o'.toExpandedPk
  s : o.s = o'.s
  digest1 : o.digest1 = o'.digest1
  chall1 : o.chall1 = o'.chall1
  chall2 : o.chall2 = o'.chall2
  seeds : ∀ i < p.t, o.chall2 i = 1 → o.roundSeeds i = o'.roundSeeds i

section Alike

variable {o o' : Opening p} (same : SameOpening o o')

include same in
theorem SameOpening.symm : SameOpening o' o :=
  ⟨same.pk.symm, same.s.symm, same.digest1.symm, same.chall1.symm, same.chall2.symm, fun i inside one =>
    (same.seeds i inside (by rwa [same.chall2])).symm⟩

include same in
theorem reopenAlike (salt : Block p.saltLength) {i : Nat} (inside : i < p.t) (one : o.chall2 i = 1) :
    reopenRound p shake .portable o salt i = reopenRound p shake .portable o' salt i := by
  unfold reopenRound
  rw [same.pk, same.chall1, same.seeds i inside one]

include same in
theorem syndromeAlike (i : Nat) (y : FpVec p.n) (vGBar : FzVec p.m) :
    responseSyndrome p .portable o i y vGBar = responseSyndrome p .portable o' i y vGBar := by
  unfold responseSyndrome
  rw [same.pk, same.chall1, same.s]

include same in
theorem explainsAlike {pk : PublicKey p} {sig : CrossSig p} {tr : Transcript p} (here : Explains p shake pk sig tr o) :
    Explains p shake pk sig tr o' where
  key := here.key
  keyRange := here.keyRange
  path := same.chall2 ▸ here.path
  pathRest := same.chall2 ▸ here.pathRest
  proof := same.chall2 ▸ here.proof
  proofRest := same.chall2 ▸ here.proofRest
  reopened i inside one := by
    rw [← same.chall2] at one
    rw [← reopenAlike shake same sig.salt inside one]
    exact here.reopened i inside one
  opened i inside one := by
    rw [← same.chall2] at one
    rw [← same.seeds i inside one]
    exact here.opened i inside one
  responded := same.chall2 ▸ here.responded
  range := same.chall2 ▸ here.range
  inGroup := same.chall2 ▸ here.inGroup
  answered i inside zero := by
    rw [← same.chall2] at zero
    rw [← syndromeAlike same]
    exact here.answered i inside zero
  kept := same.chall2 ▸ here.kept
  digestCmt := here.digestCmt
  digestChall2 := same.digest1 ▸ here.digestChall2

end Alike

section Accepted

variable {pk : PublicKey p} {m : Bytes} {sig : CrossSig p}

theorem verdictParts {o : Opening p} {v : VerifyState p} {tree : Merkle.Digests p} :
    verdict p shake .portable o sig v tree = true ↔
      v.isSignatureOk = true ∧ digestCommitments p shake (Build.portable.recomputeRoot p shake tree v.cmts.cmt0
          (Mem.ofBlock sig.proof) o.chall2).root v.cmts.cmt1 = sig.digestCmt ∧
        digestChall2 p shake v.y o.digest1 = sig.digestChall2 ∧
        (Build.portable.recomputeRoot p shake tree v.cmts.cmt0 (Mem.ofBlock sig.proof) o.chall2).accepted = true ∧
        o.isStreePaddingOk = true ∧ o.isPaddKeyOk = true ∧ v.isPackedPaddOk = true := by
  unfold verdict
  simp only [Bool.and_eq_true, decide_eq_true_eq, and_assoc]

structure OpenedFrom (shake : Shake) (pk : PublicKey p) (sig : CrossSig p) (c : Challenge p) (o : Opening p) : Prop where
  array : o.chall2 = c.array
  key : unpackFpSyn p pk.s = (o.s, o.isPaddKeyOk)
  path : o.isStreePaddingOk = (Build.portable.rebuildTree p shake ⟨fun _ => Block.zero _, []⟩ c.array
    (Mem.ofBlock sig.path) sig.salt).accepted
  seeds : ∀ i < p.t, o.roundSeeds i = (Build.portable.rebuildTree p shake ⟨fun _ => Block.zero _, []⟩ c.array
    (Mem.ofBlock sig.path) sig.salt).restoring.nodes.cell (p.layout.leafNode i)
  zero : ∃ cnt < p.t, c.array cnt = 0

theorem openedFrom : OpenedFrom shake pk sig (challengeOf p shake sig.digestChall2)
    (openSignature p shake .portable pk m sig) := by
  have array := challengeOfArray p shake sig.digestChall2
  refine ⟨array.symm, rfl, ?_, fun i inside => ?_, challengeOfZero p shake sig.digestChall2⟩
  · rw [array]
    rfl
  · rw [array]
    unfold openSignature
    dsimp only
    rw [SeedTree.seedLeaves, p.layout.leafLoopGather, if_pos inside]

variable {o : Opening p} {c : Challenge p}

theorem verdictExplained (opened : OpenedFrom shake pk sig c o) {tree : Merkle.Digests p} {y : Nat → FpVec p.n}
    (accepted : verdict p shake .portable o sig (Portable.verifyRounds p shake o sig y) tree = true) :
    ∃ tr, Explains p shake pk sig tr o ∧ tr.s = o.s ∧ ∀ i < p.t, tr.seed (p.layout.leafNode i) = o.roundSeeds i := by
  obtain ⟨group, digestCmt, digest2, proofOk, pathOk, keyOk, padd⟩ := (verdictParts shake).mp accepted
  have answers := passedAnswers shake opened.array (roundsPassed shake opened.array y) padd group
  have behind := roundsBehind answers y
  rw [opened.array] at digestCmt proofOk
  obtain ⟨digest, authentic, root⟩ := rootRecomputed shake c tree
    (Portable.verifyRounds p shake o sig y).cmts.cmt0 (Mem.ofBlock sig.proof)
  rw [root opened.zero] at digestCmt
  have key := (fpSynCanonical p pk.s o.s).mp (opened.key.trans (Prod.ext rfl keyOk))
  have clear := (rebuiltAccepted shake c (fun _ => Block.zero _) (Mem.ofBlock sig.path) sig.salt).mp (opened.path.symm.trans pathOk)
  refine ⟨⟨o.s, (Build.portable.rebuildTree p shake ⟨fun _ => Block.zero _, []⟩ c.array (Mem.ofBlock sig.path)
    sig.salt).restoring.nodes.cell, digest, ⟨readCmt0 p shake o sig, readCmt1 p shake o sig⟩, readY p shake o sig,
    readVGBar p o sig⟩, ?_, rfl, fun i inside => (opened.seeds i inside).symm⟩
  have unpacked : ∀ i < p.t, c.array i = 0 →
      resp0At p sig (zerosBefore c.array i) = ⟨packFpVec p (readY p shake o sig i), packFzRsdpGVec p (readVGBar p o sig i)⟩ ∧
        ∀ j : Fin p.n, (readY p shake o sig i)[j].toNat < 512 := by
    intro i inside zero
    have first := (fpVecCanonical p _ _).mp (answers.unpackedY i inside zero)
    have second := (fzRsdpGVecCanonical p _ _).mp (answers.unpackedVGBar i inside zero)
    refine ⟨?_, first.1⟩
    rw [first.2, second.2]
  refine ⟨key.2, key.1, ?_, ?_, ?_, ?_, ?_, ?_, ?_, ?_, ?_, ?_, ?_, ?_, ?_⟩ <;> try rw [opened.array]
  · exact rebuiltDisclosed shake c _ _ _
  · exact clear
  · exact { authentic with
      leaves := fun n small leaf own => (authentic.leaves n small leaf own).trans
        (leavesAgree c (fun cnt below zero => behind.answered cnt below zero) n small leaf own) }
  · exact (rootAccepted shake c tree _ _).mp proofOk
  · exact answers.reopened
  · exact answers.opened
  · exact fun i inside zero => (unpacked i inside zero).1
  · exact fun i inside zero => (unpacked i inside zero).2
  · exact answers.inGroup
  · intro i inside zero
    have answered := answers.answered i inside zero
    rwa [verifyJob0, (unpacked i inside zero).1] at answered
  · exact answers.kept
  · rw [← digestCmt]
    unfold digestCommitments
    rw [contiguousCongr p behind.opened]
  · rw [← digest2]
    exact (digestChall2Congr p shake behind.responses o.digest1).symm

theorem explainedVerdict (opened : OpenedFrom shake pk sig c o) {tr : Transcript p} (explains : Explains p shake pk sig tr o)
    (tree : Merkle.Digests p) (y : Nat → FpVec p.n) (keyOk : o.isPaddKeyOk = true) :
    verdict p shake .portable o sig (Portable.verifyRounds p shake o sig y) tree = true := by
  obtain ⟨-, -, path, pathRest, proof, proofRest, reopened, opened1, responded, range, inGroup, answered, kept, digestCmt,
    digest2⟩ := explains
  rw [opened.array] at path pathRest proof proofRest reopened opened1 responded range inGroup answered kept
  have answers : Answers shake c o sig tr.y tr.vGBar tr.cmts := by
    refine ⟨opened.array, reopened, opened1, fun i inside zero => ?_, fun i inside zero => ?_, inGroup,
      fun i inside zero => ?_, kept⟩
    · rw [responded i inside zero]
      exact (fpVecCanonical p _ _).mpr ⟨range i inside zero, rfl⟩
    · rw [responded i inside zero]
      exact (fzRsdpGVecCanonical p _ _).mpr ⟨fun j => Nat.lt_trans (inGroup i inside zero j) (by decide), rfl⟩
    · rw [← answered i inside zero, verifyJob0, responded i inside zero]
  have behind := roundsBehind answers y
  obtain ⟨digest, authentic, root⟩ := rootRecomputed shake c tree
    (Portable.verifyRounds p shake o sig y).cmts.cmt0 (Mem.ofBlock sig.proof)
  have known := Merkle.knownSettled p.layout c.array
  have same : digest 0 = tr.digest 0 := by
    obtain ⟨cnt, inside, zero⟩ := opened.zero
    refine p.layout.tree.authenticUnique known { authentic with
      leaves := fun n small leaf own => (authentic.leaves n small leaf own).trans
        (leavesAgree c (fun cnt below zero => behind.answered cnt below zero) n small leaf own) } proof 0
      p.layout.tree.nonempty (Merkle.rootKnown p.layout inside zero)
  refine (verdictParts shake).mpr ⟨behind.group, ?_, ?_, ?_, ?_, keyOk, behind.padd⟩
  · rw [opened.array, root opened.zero, same, ← digestCmt]
    unfold digestCommitments
    rw [contiguousCongr p behind.opened]
  · rw [← digest2]
    exact digestChall2Congr p shake behind.responses o.digest1
  · rw [opened.array]
    exact (rootAccepted shake c tree _ _).mpr proofRest
  · rw [opened.path]
    exact (rebuiltAccepted shake c _ _ _).mpr pathRest

theorem portableAccepts (tree : Merkle.Digests p) (y : Nat → FpVec p.n) :
    Portable.crossVerify p shake pk m sig tree y = true ↔ Acceptable p shake pk m sig := by
  have opened := @openedFrom p shake pk m sig
  constructor
  · intro accepted
    obtain ⟨tr, explains, s, seeds⟩ := verdictExplained shake opened accepted
    have alike : SameOpening (openSignature p shake .portable pk m sig) (tr.opening p shake pk m sig) :=
      ⟨rfl, s.symm, rfl, rfl, rfl, fun i inside _ => (seeds i inside).symm⟩
    exact ⟨tr, explainsAlike shake alike explains⟩
  · rintro ⟨tr, explains⟩
    have key := (fpSynCanonical p pk.s tr.s).mpr ⟨explains.keyRange, explains.key⟩
    have read := opened.key.symm.trans key
    have s : tr.s = (openSignature p shake .portable pk m sig).s := (congrArg Prod.fst read).symm
    have array : expandDigestToFixedWeight p shake sig.digestChall2 = (challengeOf p shake sig.digestChall2).array :=
      (challengeOfArray p shake sig.digestChall2).symm
    obtain ⟨cnt, bound, zero⟩ := opened.zero
    have hidden : SeedTree.published p.layout (challengeOf p shake sig.digestChall2).array 0 = false :=
      SeedTree.rootHidden p.layout bound (by rw [zero]; decide)
    have path := explains.path
    change p.layout.tree.Disclosed _ (SeedTree.published p.layout (expandDigestToFixedWeight p shake sig.digestChall2)) _ _
      at path
    rw [array] at path
    have seeds : ∀ i < p.t, (challengeOf p shake sig.digestChall2).array i = 1 →
        tr.seed (p.layout.leafNode i) = (openSignature p shake .portable pk m sig).roundSeeds i := by
      intro i inside one
      rw [opened.seeds i inside]
      refine p.layout.tree.disclosedUnique hidden path (rebuiltDisclosed shake _ _ _ _) _ (p.layout.leafNodeInside inside).1 ?_
      rw [SeedTree.publishedLeaf p.layout _ inside, one]
      rfl
    have alike : SameOpening (tr.opening p shake pk m sig) (openSignature p shake .portable pk m sig) :=
      ⟨rfl, s, rfl, rfl, rfl, fun i inside one => seeds i inside (by rw [← array]; exact one)⟩
    exact explainedVerdict shake opened (explainsAlike shake alike explains) tree y (congrArg Prod.snd read)

end Accepted

theorem verifyAcceptable (category : Category) (shake : Shake) :
    let p := category.parameters
    ∀ (pk : PublicKey p) (m : Bytes) (sig : CrossSig p),
      (∀ (tree : Merkle.Digests p) (y : Nat → FpVec p.n),
        Portable.crossVerify p shake pk m sig tree y = true ↔ Acceptable p shake pk m sig) ∧
      ∀ (length : VectorLength) (tree : Merkle.Digests p) (unwritten : Sve2.Unwritten p),
        Sve2.crossVerify p shake length pk m sig tree unwritten = true ↔ Acceptable p shake pk m sig := by
  intro p pk m sig
  refine ⟨fun tree y => portableAccepts shake tree y, fun length tree unwritten => ?_⟩
  exact (crossVerifyAgrees p shake length pk m sig tree tree (fun _ => Vector.replicate _ 0) unwritten).trans
    (portableAccepts shake tree _)

end Armor.Cross
