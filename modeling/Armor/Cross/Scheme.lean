import Armor.Cross.Merkle
import Armor.Cross.Pack
import Armor.Cross.Sampling

/-! Key generation, signing and verification: `CROSS.c`. The two builds share every line but the
helpers they call, the queues in front of the hash calls, and one short-circuit in the verifier. -/
namespace Armor.Cross

/-- The portable build, or `OQS_ENABLE_SVE2` on a unit of some vector length. -/
inductive Build where
  | portable
  | sve2 (length : VectorLength)

structure PublicKey (p : Parameters) where
  seedPk : Block p.keypairSeedLength
  s : Block p.denselyPackedFpSynSize

structure SecretKey (p : Parameters) where
  seedSk : Block p.keypairSeedLength

structure Resp0 (p : Parameters) where
  y : Block p.denselyPackedFpVecSize
  vGBar : Block p.denselyPackedFzRsdpGVecSize

def Resp0.zero (p : Parameters) : Resp0 p := ⟨Block.zero _, Block.zero _⟩

structure CrossSig (p : Parameters) where
  salt : Block p.saltLength
  digestCmt : Block p.hashLength
  digestChall2 : Block p.hashLength
  path : Block (p.treeNodesToStore * p.seedLength)
  proof : Block (p.treeNodesToStore * p.hashLength)
  resp1 : Vector (Block p.hashLength) (p.t - p.w)
  resp0 : Vector (Resp0 p) (p.t - p.w)

namespace Build

def fzInfWByFzMatrix {m n : Nat} : Build → FzVec m → Matrix FzElem m (n - m) → FzVec n
  | .portable => Portable.fzInfWByFzMatrix
  | .sve2 length => Sve2.fzInfWByFzMatrix length

def restrVecByFpMatrix {k n : Nat} (inside : k ≤ n) : Build → FzVec n → Matrix FpElem k (n - k) → FpVec (n - k)
  | .portable => Portable.restrVecByFpMatrix inside
  | .sve2 length => Sve2.restrVecByFpMatrix length inside

def fpVecByFpMatrix {k n : Nat} (inside : k ≤ n) : Build → FpVec n → Matrix FpElem k (n - k) → FpVec (n - k)
  | .portable => Portable.fpVecByFpMatrix inside
  | .sve2 length => Sve2.fpVecByFpMatrix length inside

variable (p : Parameters) (shake : Shake)

def genSeedTree : Build → Slots (Block p.seedLength) → Block p.seedLength → Block p.saltLength →
    Slots (Block p.seedLength)
  | .portable => SeedTree.Portable.genSeedTree p shake
  | .sve2 _ => SeedTree.Sve2.genSeedTree p shake

def computeSeedsToPublish : Build → TreeTables → Mem → Mem → Mem
  | .portable => SeedTree.Portable.computeSeedsToPublish
  | .sve2 _ => SeedTree.Sve2.computeSeedsToPublish

def rebuildTree : Build → Slots (Block p.seedLength) → Mem → Mem → Block p.saltLength → SeedTree.RebuiltTree p
  | .portable => SeedTree.Portable.rebuildTree p shake
  | .sve2 _ => SeedTree.Sve2.rebuildTree p shake

def treeRoot : Build → Merkle.Digests p → Merkle.Digests p → Block p.hashLength × Merkle.Digests p
  | .portable => Merkle.Portable.treeRoot p shake
  | .sve2 _ => Merkle.Sve2.treeRoot p shake

def recomputeRoot : Build → Merkle.Digests p → Merkle.Digests p → Mem → Mem → Merkle.RecomputedRoot p
  | .portable => Merkle.Portable.recomputeRoot p shake
  | .sve2 _ => Merkle.Sve2.recomputeRoot p shake

end Build

variable (p : Parameters) (shake : Shake) (build : Build)

structure ExpandedPk where
  vTr : Matrix FpElem p.k (p.n - p.k)
  wMat : Matrix FzElem p.m (p.n - p.m)

def expandPk (seedPk : Block p.keypairSeedLength) : ExpandedPk p :=
  let dsc := csprngDomainSepConst + UInt16.ofNat (3 * p.t + 2)
  let wMat := csprngFzMat p shake (csprngInitialize seedPk.toList dsc)
  let vTr := csprngFpMat p shake wMat.2
  ⟨vTr.1, wMat.1⟩

def seedESeedPk (seedSk : Block p.keypairSeedLength) : Block (2 * p.keypairSeedLength) :=
  let dsc := csprngDomainSepConst + UInt16.ofNat (3 * p.t + 1)
  (csprngRandombytes shake (2 * p.keypairSeedLength) (csprngInitialize seedSk.toList dsc)).1

structure ExpandedSk extends ExpandedPk p where
  eBar : FzVec p.n
  eGBar : FzVec p.m

def expandError (seedE : Block p.keypairSeedLength) (pk : ExpandedPk p) : ExpandedSk p :=
  let dsc := csprngDomainSepConst + UInt16.ofNat (3 * p.t + 3)
  let eGBar := (csprngFzInfW p shake (csprngInitialize seedE.toList dsc)).1
  ⟨pk, fzDzNorm (build.fzInfWByFzMatrix eGBar pk.wMat), eGBar⟩

def expandSk (seedSk : Block p.keypairSeedLength) : ExpandedSk p :=
  let seeds := seedESeedPk p shake seedSk
  expandError p shake build seeds.fst (expandPk p shake seeds.snd)

def crossKeygen (seedSk : Block p.keypairSeedLength) : SecretKey p × PublicKey p :=
  let seeds := seedESeedPk p shake seedSk
  let sk := expandError p shake build seeds.fst (expandPk p shake seeds.snd)
  let s := fpDzNorm (build.restrVecByFpMatrix p.rowsInside sk.eBar sk.vTr)
  (⟨seedSk⟩, ⟨seeds.snd, packFpSyn p s⟩)

def roundCsprngDsc (i : Nat) : UInt16 := csprngDomainSepConst + UInt16.ofNat i + UInt16.ofNat (2 * p.t - 1)
def roundHashDsc (i : Nat) : UInt16 := hashDomainSepConst + UInt16.ofNat i + UInt16.ofNat (2 * p.t - 1)

def cmt0Input (sPrime : FpVec (p.n - p.k)) (vGBar : Block p.denselyPackedFzRsdpGVecSize) (salt : Block p.saltLength) :
    Bytes :=
  (packFpSyn p sPrime).toList ++ vGBar.toList ++ salt.toList

def cmt1Input (seed : Block p.seedLength) (salt : Block p.saltLength) : Bytes := seed.toList ++ salt.toList

structure Commitments where
  cmt0 : Merkle.Digests p
  cmt1 : Merkle.Digests p

def Commitments.zero : Commitments p := ⟨fun _ => Block.zero _, fun _ => Block.zero _⟩

def contiguous {len : Nat} (entry : Nat → Block len) : Bytes := (List.range p.t).flatMap fun i => (entry i).toList

def digestCommitments (root : Block p.hashLength) (cmt1 : Merkle.Digests p) : Block p.hashLength :=
  let digest1 := hash p shake (contiguous p cmt1) hashDomainSepConst
  hash p shake (root.toList ++ digest1.toList) hashDomainSepConst

def digestChall1 (m : Bytes) (digestCmt : Block p.hashLength) (salt : Block p.saltLength) : Block p.hashLength :=
  let digestMsg := hash p shake m hashDomainSepConst
  hash p shake (digestMsg.toList ++ digestCmt.toList ++ salt.toList) hashDomainSepConst

def expandChall1 (digest : Block p.hashLength) : FpVec p.t :=
  let dsc := csprngDomainSepConst + UInt16.ofNat (3 * p.t - 1)
  (csprngFpVecChall1 p shake (csprngInitialize digest.toList dsc)).1

def digestChall2 (y : Nat → FpVec p.n) (digest1 : Block p.hashLength) : Block p.hashLength :=
  hash p shake (contiguous p (fun x => packFpVec p (y x)) ++ digest1.toList) hashDomainSepConst

def chall1At (chall1 : FpVec p.t) (i : Nat) : FpElem := chall1.getD i 0

structure HashJob where
  roundIdx : Nat
  input : Bytes
  dsc : UInt16

def hashQueued {ι : Type} (job : ι → HashJob) (q : Batch.Queue ι) (out : Merkle.Digests p) : Merkle.Digests p :=
  let digests := hashPar p shake q.count (job (q.slot 0)).input (job (q.slot 1)).input (job (q.slot 0)).dsc
    (job (q.slot 1)).dsc
  Merkle.storeIf p (job (q.slot 1)).roundIdx digests.2 (Merkle.storeIf p (job (q.slot 0)).roundIdx digests.1 out)

structure Round where
  eBarPrime : FzVec p.n
  uPrime : FpVec p.n
  vGBar : FzVec p.m
  sPrime : FpVec (p.n - p.k)

def signRound (sk : ExpandedSk p) (salt : Block p.saltLength) (seed : Block p.seedLength) (i : Nat) : Round p :=
  let csprngState := csprngInitialize (SeedTree.csprngInput p seed salt) (roundCsprngDsc p i)
  let eGBarPrime := csprngFzInfW p shake csprngState
  let vGBar := fzDzNorm (fzVecSub sk.eGBar eGBarPrime.1)
  let eBarPrime := fzDzNorm (build.fzInfWByFzMatrix eGBarPrime.1 sk.wMat)
  let vBar := fzVecSub sk.eBar eBarPrime
  let v := convertRestrVecToFp vBar
  let uPrime := csprngFpVec p shake eGBarPrime.2
  let u := fpVecByFpVecPointwise v uPrime.1
  let sPrime := fpDzNorm (build.fpVecByFpMatrix p.rowsInside u sk.vTr)
  ⟨eBarPrime, uPrime.1, vGBar, sPrime⟩

section Commit

variable (salt : Block p.saltLength) (roundSeeds : Nat → Block p.seedLength) (rounds : Nat → Round p)

def signJob0 (i : Nat) : HashJob :=
  ⟨i, cmt0Input p (rounds i).sPrime (packFzRsdpGVec p (rounds i).vGBar) salt, roundHashDsc p i⟩

def signJob1 (i : Nat) : HashJob := ⟨i, cmt1Input p (roundSeeds i) salt, roundHashDsc p i⟩

def Portable.commitRounds : Commitments p :=
  Loop.upTo p.t (fun i s =>
    let job0 := signJob0 p salt rounds i
    let job1 := signJob1 p salt roundSeeds i
    { cmt0 := Function.update s.cmt0 i (hash p shake job0.input job0.dsc)
      cmt1 := Function.update s.cmt1 i (hash p shake job1.input job1.dsc) }) (Commitments.zero p)

def Sve2.hashRounds (q : Batch.Queue (HashJob × HashJob)) (s : Commitments p) : Commitments p :=
  { cmt0 := hashQueued p shake Prod.fst q s.cmt0, cmt1 := hashQueued p shake Prod.snd q s.cmt1 }

def Sve2.commitRounds : Commitments p :=
  (Loop.upTo p.t (fun i s =>
    Batch.flushWhen (Sve2.hashRounds p shake) 2 (decide (i = p.t - 1))
      (s.1.push (signJob0 p salt rounds i, signJob1 p salt roundSeeds i), s.2))
    (⟨0, fun _ => (⟨0, [], 0⟩, ⟨0, [], 0⟩)⟩, Commitments.zero p)).2

end Commit

def Build.commitRounds : Build → Block p.saltLength → (Nat → Block p.seedLength) → (Nat → Round p) → Commitments p
  | .portable => Portable.commitRounds p shake
  | .sve2 _ => Sve2.commitRounds p shake

structure Responses where
  resp1 : Vector (Block p.hashLength) (p.t - p.w)
  resp0 : Vector (Resp0 p) (p.t - p.w)
  publishedRsps : Nat

def publishResponses (chall2 : Mem) (y : Nat → FpVec p.n) (rounds : Nat → Round p) (cmt1 : Merkle.Digests p) :
    Responses p :=
  Loop.upTo p.t (fun i s =>
    if chall2 i = 0 then
      { resp0 := s.resp0.setIfInBounds s.publishedRsps ⟨packFpVec p (y i), packFzRsdpGVec p (rounds i).vGBar⟩
        resp1 := s.resp1.setIfInBounds s.publishedRsps (cmt1 i)
        publishedRsps := s.publishedRsps + 1 }
    else s)
    ⟨Vector.replicate _ (Block.zero _), Vector.replicate _ (Resp0.zero p), 0⟩

def firstResponse (chall1 : FpVec p.t) (rounds : Nat → Round p) (i : Nat) : FpVec p.n :=
  fpDzNorm (fpVecByRestrVecScaled (rounds i).eBarPrime (chall1At p chall1 i) (rounds i).uPrime)

def respond (m : Bytes) (salt : Block p.saltLength) (seedTree : Nat → Block p.seedLength) (rounds : Nat → Round p)
    (cmt1 : Merkle.Digests p) (root : Block p.hashLength) (merkleTree0 : Merkle.Digests p) : CrossSig p :=
  let digestCmt := digestCommitments p shake root cmt1
  let digest1 := digestChall1 p shake m digestCmt salt
  let y := firstResponse p (expandChall1 p shake digest1) rounds
  let digest2 := digestChall2 p shake y digest1
  let chall2 := expandDigestToFixedWeight p shake digest2
  let proof := Merkle.treeProof p Mem.zero merkleTree0 chall2
  let path := SeedTree.seedPath p build.computeSeedsToPublish Mem.zero seedTree chall2
  let responses := publishResponses p chall2 y rounds cmt1
  { salt := salt
    digestCmt := digestCmt
    digestChall2 := digest2
    path := path.storage.block 0 _
    proof := proof.mtp.block 0 _
    resp1 := responses.resp1
    resp0 := responses.resp0 }

/-- On the root seed and the salt drawn by `randombytes`. `merkleTree0` is what the array of the
Merkle tree holds when it is declared. -/
def crossSign (sk : SecretKey p) (m : Bytes) (rootSeed : Block p.seedLength) (salt : Block p.saltLength)
    (merkleTree0 : Merkle.Digests p) : CrossSig p :=
  let expanded := expandSk p shake build sk.seedSk
  let seedTree := (build.genSeedTree p shake ⟨fun _ => Block.zero _, []⟩ rootSeed salt).cell
  let roundSeeds := SeedTree.seedLeaves p (fun _ => Block.zero _) seedTree
  let rounds := fun i => signRound p shake build expanded salt (roundSeeds i) i
  let cmts := build.commitRounds p shake salt roundSeeds rounds
  let built := build.treeRoot p shake merkleTree0 cmts.cmt0
  respond p shake build m salt seedTree rounds cmts.cmt1 built.1 built.2

structure Opening extends ExpandedPk p where
  s : FpVec (p.n - p.k)
  isPaddKeyOk : Bool
  digest1 : Block p.hashLength
  chall1 : FpVec p.t
  chall2 : Mem
  roundSeeds : Nat → Block p.seedLength
  isStreePaddingOk : Bool

def openSignature (pk : PublicKey p) (m : Bytes) (sig : CrossSig p) : Opening p :=
  let s := unpackFpSyn p pk.s
  let digest1 := digestChall1 p shake m sig.digestCmt sig.salt
  let chall2 := expandDigestToFixedWeight p shake sig.digestChall2
  let rebuilt := build.rebuildTree p shake ⟨fun _ => Block.zero _, []⟩ chall2 (Mem.ofBlock sig.path) sig.salt
  { expandPk p shake pk.seedPk with
    s := s.1
    isPaddKeyOk := s.2
    digest1 := digest1
    chall1 := expandChall1 p shake digest1
    chall2 := chall2
    roundSeeds := SeedTree.seedLeaves p (fun _ => Block.zero _) rebuilt.restoring.nodes.cell
    isStreePaddingOk := rebuilt.accepted }

def reopenRound (o : Opening p) (salt : Block p.saltLength) (i : Nat) : FpVec p.n :=
  let csprngState := csprngInitialize (SeedTree.csprngInput p (o.roundSeeds i) salt) (roundCsprngDsc p i)
  let eGBarPrime := csprngFzInfW p shake csprngState
  let eBarPrime := fzDzNorm (build.fzInfWByFzMatrix eGBarPrime.1 o.wMat)
  let uPrime := csprngFpVec p shake eGBarPrime.2
  fpDzNorm (fpVecByRestrVecScaled eBarPrime (chall1At p o.chall1 i) uPrime.1)

def responseSyndrome (o : Opening p) (i : Nat) (y : FpVec p.n) (vGBar : FzVec p.m) : FpVec (p.n - p.k) :=
  let vBar := build.fzInfWByFzMatrix vGBar o.wMat
  let v := convertRestrVecToFp vBar
  let yPrime := fpVecByFpVecPointwise v y
  let yPrimeH := fpDzNorm (build.fpVecByFpMatrix p.rowsInside yPrime o.vTr)
  fpDzNorm (fpSyndMinusFpVecScaled yPrimeH (chall1At p o.chall1 i) o.s)

structure VerifyState where
  y : Nat → FpVec p.n
  cmts : Commitments p
  usedRsps : Nat
  isSignatureOk : Bool
  isPackedPaddOk : Bool

section Rounds

variable (o : Opening p) (sig : CrossSig p)

def resp0At (i : Nat) : Resp0 p := sig.resp0.getD i (Resp0.zero p)
def resp1At (i : Nat) : Block p.hashLength := sig.resp1.getD i (Block.zero _)

def verifyJob1 (i : Nat) : HashJob := ⟨i, cmt1Input p (o.roundSeeds i) sig.salt, roundHashDsc p i⟩

def verifyJob0 (i : Nat) (usedRsps : Nat) (y : FpVec p.n) (vGBar : FzVec p.m) : HashJob :=
  ⟨i, cmt0Input p (responseSyndrome p build o i y vGBar) (resp0At p sig usedRsps).vGBar sig.salt, roundHashDsc p i⟩

def Portable.verifyRound (i : Nat) (s : VerifyState p) : VerifyState p :=
  if o.chall2 i = 1 then
    let job := verifyJob1 p o sig i
    { s with
      cmts := { s.cmts with cmt1 := Function.update s.cmts.cmt1 i (hash p shake job.input job.dsc) }
      y := Function.update s.y i (reopenRound p shake .portable o sig.salt i) }
  else
    let y := unpackFpVec p (resp0At p sig s.usedRsps).y
    let vGBar := unpackFzRsdpGVec p (resp0At p sig s.usedRsps).vGBar
    let job := verifyJob0 p .portable o sig i s.usedRsps y.1 vGBar.1
    { y := Function.update s.y i y.1
      isPackedPaddOk := s.isPackedPaddOk && y.2 && vGBar.2
      isSignatureOk := s.isSignatureOk && isFzVecInRestrGroupM vGBar.1
      cmts :=
        { cmt0 := Function.update s.cmts.cmt0 i (hash p shake job.input job.dsc)
          cmt1 := Function.update s.cmts.cmt1 i (resp1At p sig s.usedRsps) }
      usedRsps := s.usedRsps + 1 }

structure Sve2.VerifyQueues extends VerifyState p where
  queue1 : Batch.Queue HashJob
  queue0 : Batch.Queue HashJob

/-- What the arrays hold that a failed unpacking leaves unwritten: `y` when it is declared, and
`v_G_bar` when it is declared in some round. -/
structure Sve2.Unwritten where
  y : Nat → FpVec p.n
  vGBar : Nat → FzVec p.m

def Sve2.verifyRoundBody (length : VectorLength) (unwritten : Sve2.Unwritten p) (i : Nat) (s : Sve2.VerifyQueues p) :
    Sve2.VerifyQueues p :=
  if o.chall2 i = 1 then
    { s with
      queue1 := s.queue1.push (verifyJob1 p o sig i)
      y := Function.update s.y i (reopenRound p shake (.sve2 length) o sig.salt i) }
  else
    -- `&&` does not call the second unpacking, nor either one, once the flag is 0
    let unpackedY := unpackFpVec p (resp0At p sig s.usedRsps).y
    let y := if s.isPackedPaddOk = true then unpackedY.1 else s.y i
    let isPackedPaddYOk := s.isPackedPaddOk && unpackedY.2
    let unpackedVGBar := unpackFzRsdpGVec p (resp0At p sig s.usedRsps).vGBar
    let vGBar := if isPackedPaddYOk = true then unpackedVGBar.1 else unwritten.vGBar i
    { y := Function.update s.y i y
      isPackedPaddOk := isPackedPaddYOk && unpackedVGBar.2
      isSignatureOk := s.isSignatureOk && isFzVecInRestrGroupM vGBar
      cmts := { s.cmts with cmt1 := Function.update s.cmts.cmt1 i (resp1At p sig s.usedRsps) }
      usedRsps := s.usedRsps + 1
      queue1 := s.queue1
      queue0 := s.queue0.push (verifyJob0 p (.sve2 length) o sig i s.usedRsps y vGBar) }

def Sve2.verifyFlush (i : Nat) (s : Sve2.VerifyQueues p) : Sve2.VerifyQueues p :=
  let last := decide (i = p.t - 1)
  let flushed1 := Batch.flushWhen (hashQueued p shake id) 2 last (s.queue1, s.cmts.cmt1)
  let flushed0 := Batch.flushWhen (hashQueued p shake id) 2 last (s.queue0, s.cmts.cmt0)
  { s with queue1 := flushed1.1, queue0 := flushed0.1, cmts := ⟨flushed0.2, flushed1.2⟩ }

def Portable.verifyRounds (y : Nat → FpVec p.n) : VerifyState p :=
  Loop.upTo p.t (Portable.verifyRound p shake o sig) ⟨y, Commitments.zero p, 0, true, true⟩

def Sve2.verifyRounds (length : VectorLength) (unwritten : Sve2.Unwritten p) : VerifyState p :=
  let empty : Batch.Queue HashJob := ⟨0, fun _ => ⟨0, [], 0⟩⟩
  (Loop.upTo p.t (fun i s => Sve2.verifyFlush p shake i (Sve2.verifyRoundBody p shake o sig length unwritten i s))
    ⟨⟨unwritten.y, Commitments.zero p, 0, true, true⟩, empty, empty⟩).toVerifyState

def verdict (s : VerifyState p) (tree : Merkle.Digests p) : Bool :=
  let recomputed := build.recomputeRoot p shake tree s.cmts.cmt0 (Mem.ofBlock sig.proof) o.chall2
  let digestCmtPrime := digestCommitments p shake recomputed.root s.cmts.cmt1
  let digestChall2Prime := digestChall2 p shake s.y o.digest1
  s.isSignatureOk && decide (digestCmtPrime = sig.digestCmt) && decide (digestChall2Prime = sig.digestChall2) &&
    recomputed.accepted && o.isStreePaddingOk && o.isPaddKeyOk && s.isPackedPaddOk

end Rounds

/-- `true` for the return value 1. `y` and `tree` are what two arrays hold when they are declared. -/
def Portable.crossVerify (pk : PublicKey p) (m : Bytes) (sig : CrossSig p) (tree : Merkle.Digests p)
    (y : Nat → FpVec p.n) : Bool :=
  let o := openSignature p shake .portable pk m sig
  verdict p shake .portable o sig (Portable.verifyRounds p shake o sig y) tree

def Sve2.crossVerify (length : VectorLength) (pk : PublicKey p) (m : Bytes) (sig : CrossSig p) (tree : Merkle.Digests p)
    (unwritten : Sve2.Unwritten p) : Bool :=
  let o := openSignature p shake (.sve2 length) pk m sig
  verdict p shake (.sve2 length) o sig (Sve2.verifyRounds p shake o sig length unwritten) tree

end Armor.Cross
