import Armor.Cross.Binding
import Armor.Lib.Image

/-! The byte interface of the scheme: `sign.c` over the structures of `CROSS.h`, and the wrappers
`sig_cross_rsdpg_128_balanced.c`, which are the same for 192 and 256. A pointer is the memory it points to. -/
namespace Armor.Cross

variable (p : Parameters)

def PublicKey.fields : PublicKey p ≃ Block p.keypairSeedLength × Block p.denselyPackedFpSynSize where
  toFun pk := (pk.seedPk, pk.s)
  invFun f := ⟨f.1, f.2⟩

def SecretKey.fields : SecretKey p ≃ Block p.keypairSeedLength where
  toFun sk := sk.seedSk
  invFun f := ⟨f⟩

def Resp0.fields : Resp0 p ≃ Block p.denselyPackedFpVecSize × Block p.denselyPackedFzRsdpGVecSize where
  toFun r := (r.y, r.vGBar)
  invFun f := ⟨f.1, f.2⟩

def CrossSig.fields : CrossSig p ≃ Block p.saltLength × Block p.hashLength × Block p.hashLength ×
    Block (p.treeNodesToStore * p.seedLength) × Block (p.treeNodesToStore * p.hashLength) ×
    Vector (Block p.hashLength) (p.t - p.w) × Vector (Resp0 p) (p.t - p.w) where
  toFun sig := (sig.salt, sig.digestCmt, sig.digestChall2, sig.path, sig.proof, sig.resp1, sig.resp0)
  invFun f := ⟨f.1, f.2.1, f.2.2.1, f.2.2.2.1, f.2.2.2.2.1, f.2.2.2.2.2.1, f.2.2.2.2.2.2⟩

def pkT : Image (PublicKey p) := ((Image.block _).pair (Image.block _)).via (PublicKey.fields p)

def skT : Image (SecretKey p) := (Image.block _).via (SecretKey.fields p)

def resp0T : Image (Resp0 p) := ((Image.block _).pair (Image.block _)).via (Resp0.fields p)

def crossSigT : Image (CrossSig p) :=
  ((Image.block _).pair ((Image.block _).pair ((Image.block _).pair ((Image.block _).pair ((Image.block _).pair
    (((Image.block _).array _).pair ((resp0T p).array _))))))).via (CrossSig.fields p)

structure SignDraws where
  rootSeed : Block p.seedLength
  salt : Block p.saltLength
  merkleTree0 : Merkle.Digests p

structure VerifyArrays where
  tree : Merkle.Digests p
  y : Nat → FpVec p.n
  unwritten : Sve2.Unwritten p

def Build.crossVerify (shake : Shake) (arrays : VerifyArrays p) (pk : PublicKey p) (m : Bytes) (sig : CrossSig p) : Build → Bool
  | .portable => Portable.crossVerify p shake pk m sig arrays.tree arrays.y
  | .sve2 length => Sve2.crossVerify p shake length pk m sig arrays.tree arrays.unwritten

structure Keypair where
  pk : Mem
  sk : Mem
  status : Int

structure SignedMessage where
  sm : Mem
  smlen : UInt64
  status : Int

structure OpenedMessage where
  m : Mem
  mlen : UInt64
  status : Int

variable (shake : Shake) (build : Build)

def cryptoSignKeypair (seedSk : Block p.keypairSeedLength) (pk sk : Mem) : Keypair :=
  let keys := crossKeygen p shake build seedSk
  ⟨pk.write 0 ((pkT p).bytes keys.2), sk.write 0 ((skT p).bytes keys.1), 0⟩

def signPointers (draws : SignDraws p) (sk m : Mem) (mlen : UInt64) : CrossSig p :=
  crossSign p shake build ((skT p).load sk) (m.bytes 0 mlen.toNat) draws.rootSeed draws.salt draws.merkleTree0

def verifyPointers (arrays : VerifyArrays p) (pk m : Mem) (mlen : UInt64) (sig : Mem) : Int :=
  let ok : Int := if build.crossVerify p shake arrays ((pkT p).load pk) (m.bytes 0 mlen.toNat)
    ((crossSigT p).load sig) then 1 else 0
  ok - 1

def cryptoSign (draws : SignDraws p) (sm m : Mem) (mlen : UInt64) (sk : Mem) : SignedMessage :=
  let copied := sm.write 0 (m.bytes 0 mlen.toNat)
  let sig := signPointers p shake build draws sk m mlen
  ⟨copied.write mlen.toNat ((crossSigT p).bytes sig), mlen + UInt64.ofNat (crossSigT p).size, 0⟩

def cryptoSignOpen (arrays : VerifyArrays p) (m sm : Mem) (smlen : UInt64) (pk : Mem) : OpenedMessage :=
  let mlen := smlen - UInt64.ofNat (crossSigT p).size
  let copied := m.write 0 (sm.bytes 0 mlen.toNat)
  ⟨copied, mlen, verifyPointers p shake build arrays pk copied mlen (sm.shift mlen.toNat)⟩

def cryptoSignSignature (draws : SignDraws p) (sig m : Mem) (mlen : UInt64) (sk : Mem) : SignedMessage :=
  ⟨sig.write 0 ((crossSigT p).bytes (signPointers p shake build draws sk m mlen)), UInt64.ofNat (crossSigT p).size, 0⟩

/-- `siglen` is not read. -/
def cryptoSignVerify (arrays : VerifyArrays p) (sig : Mem) (_siglen : UInt64) (m : Mem) (mlen : UInt64) (pk : Mem) : Int :=
  verifyPointers p shake build arrays pk m mlen sig

def oqsError : Int := -1

def Category.lengthPublicKey : Category → Nat
  | .one => 54
  | .three => 83
  | .five => 106

def Category.lengthSecretKey : Category → Nat
  | .one => 32
  | .three => 48
  | .five => 64

def Category.lengthSignature : Category → Nat
  | .one => 9120
  | .three => 22464
  | .five => 40100

def oqsSigKeypair := cryptoSignKeypair p shake build
def oqsSigSign := cryptoSignSignature p shake build

def oqsSigVerify (arrays : VerifyArrays p) (m : Mem) (mlen : UInt64) (sig : Mem) (siglen : UInt64) (pk : Mem) : Int :=
  cryptoSignVerify p shake build arrays sig siglen m mlen pk

/-- A context string is a pointer, which may be `NULL`, and a length. -/
def noCtxStr (ctxStr : Option Mem) (ctxStrLen : UInt64) : Bool := ctxStr.isNone && ctxStrLen == 0

def oqsSigSignWithCtxStr (draws : SignDraws p) (sig : Mem) (siglen : UInt64) (m : Mem) (mlen : UInt64) (ctxStr : Option Mem)
    (ctxStrLen : UInt64) (sk : Mem) : SignedMessage :=
  if noCtxStr ctxStr ctxStrLen then oqsSigSign p shake build draws sig m mlen sk else ⟨sig, siglen, oqsError⟩

def oqsSigVerifyWithCtxStr (arrays : VerifyArrays p) (m : Mem) (mlen : UInt64) (sig : Mem) (siglen : UInt64)
    (ctxStr : Option Mem) (ctxStrLen : UInt64) (pk : Mem) : Int :=
  if noCtxStr ctxStr ctxStrLen then oqsSigVerify p shake build arrays m mlen sig siglen pk else oqsError

theorem categorySizes (category : Category) : (pkT category.parameters).size = category.lengthPublicKey ∧
    (skT category.parameters).size = category.lengthSecretKey ∧
      (crossSigT category.parameters).size = category.lengthSignature := by
  cases category <;> exact ⟨rfl, rfl, rfl⟩

variable {p} {shake}

theorem verifiesIff {build : Build} {arrays : VerifyArrays p} {pk : PublicKey p} {m : Bytes} {sig : CrossSig p} :
    build.crossVerify p shake arrays pk m sig = true ↔ Acceptable p shake pk m sig := by
  cases build with
  | portable => exact portableAccepts shake arrays.tree arrays.y
  | sve2 length =>
    exact (crossVerifyAgrees p shake length pk m sig arrays.tree arrays.tree arrays.y arrays.unwritten).trans
      (portableAccepts shake arrays.tree arrays.y)

theorem verifyStatus {build : Build} {arrays : VerifyArrays p} {pk m sig : Mem} {mlen : UInt64} :
    verifyPointers p shake build arrays pk m mlen sig = 0 ↔
      Acceptable p shake ((pkT p).load pk) (m.bytes 0 mlen.toNat) ((crossSigT p).load sig) := by
  rw [← @verifiesIff p shake build arrays]
  unfold verifyPointers
  split
  · rename_i ok
    exact iff_of_true rfl ok
  · rename_i failed
    exact iff_of_false (by decide) failed

theorem honestAcceptable (build build' : Build) (seedSk : Block p.keypairSeedLength) (m : Bytes) (draws : SignDraws p) :
    let keys := crossKeygen p shake build seedSk
    Acceptable p shake keys.2 m (crossSign p shake build' keys.1 m draws.rootSeed draws.salt draws.merkleTree0) := by
  intro keys
  obtain ⟨s, published, key⟩ := keygenHonest p shake build seedSk
  have secret : keys.1 = ⟨seedSk⟩ := rfl
  have pk : keys.2 = _ := published
  rw [secret, pk, crossSignAgrees p shake build' _ m draws.rootSeed draws.salt draws.merkleTree0 draws.merkleTree0]
  exact (portableAccepts shake draws.merkleTree0 fun _ => Vector.replicate _ 0).mp
    (portableComplete p shake key m draws.rootSeed draws.salt draws.merkleTree0 draws.merkleTree0 _)

section Pointers

variable {build build' build'' : Build} {seedSk : Block p.keypairSeedLength} {draws : SignDraws p} {arrays : VerifyArrays p}
  {pk sk m : Mem} {mlen : UInt64}

theorem keypairRead :
    (pkT p).load (cryptoSignKeypair p shake build seedSk pk sk).pk = (crossKeygen p shake build seedSk).2 ∧
      (skT p).load (cryptoSignKeypair p shake build seedSk pk sk).sk = (crossKeygen p shake build' seedSk).1 :=
  ⟨(congrArg _ (Mem.shiftNone _).symm).trans ((pkT p).loadWritten pk 0 _),
    (congrArg _ (Mem.shiftNone _).symm).trans ((skT p).loadWritten sk 0 _)⟩

theorem writtenAcceptable (m' sig : Mem) (off : Nat) {bytes : Bytes} (same : m'.bytes 0 mlen.toNat = bytes) :
    let keys := cryptoSignKeypair p shake build seedSk pk sk
    verifyPointers p shake build'' arrays keys.pk m' mlen
      ((sig.write off ((crossSigT p).bytes (signPointers p shake build' draws keys.sk m mlen))).shift off) = 0 ↔
    Acceptable p shake (crossKeygen p shake build seedSk).2 bytes (crossSign p shake build' (crossKeygen p shake build seedSk).1
      (m.bytes 0 mlen.toNat) draws.rootSeed draws.salt draws.merkleTree0) := by
  intro keys
  have read := @keypairRead p shake build build seedSk pk sk
  rw [verifyStatus, same, read.1, (crossSigT p).loadWritten]
  unfold signPointers
  rw [read.2]

theorem copiedMessage (front m : Mem) (mlen : UInt64) :
    (front.write 0 (m.bytes 0 mlen.toNat)).bytes 0 mlen.toNat = m.bytes 0 mlen.toNat := by
  have wrote := front.writeBytes 0 (m.bytes 0 mlen.toNat)
  rwa [Mem.bytesLength] at wrote

theorem signedOpened (received sm : Mem) :
    let keys := cryptoSignKeypair p shake build seedSk pk sk
    let signed := cryptoSign p shake build' draws sm m mlen keys.sk
    cryptoSignOpen p shake build'' arrays received signed.sm signed.smlen keys.pk =
      ⟨received.write 0 (m.bytes 0 mlen.toNat), mlen, 0⟩ := by
  intro keys signed
  have length : signed.smlen - UInt64.ofNat (crossSigT p).size = mlen := UInt64.add_sub_cancel _ _
  have message : signed.sm.bytes 0 mlen.toNat = m.bytes 0 mlen.toNat := by
    refine Eq.trans (Mem.writeBytesApart _ (.inl ?_)) (copiedMessage sm m mlen)
    exact Nat.le_of_eq (Nat.zero_add _)
  unfold cryptoSignOpen
  dsimp only
  rw [length, message]
  exact congrArg _ ((writtenAcceptable _ _ _ (copiedMessage received m mlen)).mpr (honestAcceptable build build' seedSk _ draws))

theorem ownVerified (sig : Mem) :
    let keys := cryptoSignKeypair p shake build seedSk pk sk
    verifyPointers p shake build'' arrays keys.pk m mlen (cryptoSignSignature p shake build' draws sig m mlen keys.sk).sm = 0 := by
  intro keys
  rw [← Mem.shiftNone (cryptoSignSignature p shake build' draws sig m mlen keys.sk).sm]
  exact (writtenAcceptable m sig 0 rfl).mpr (honestAcceptable build build' seedSk _ draws)

theorem detachedVerified (sig : Mem) {siglen ctxStrLen : UInt64} {ctxStr : Option Mem} :
    let keys := oqsSigKeypair p shake build seedSk pk sk
    let detached := oqsSigSignWithCtxStr p shake build' draws sig siglen m mlen ctxStr ctxStrLen keys.sk
    oqsSigVerifyWithCtxStr p shake build'' arrays m mlen detached.sm detached.smlen ctxStr ctxStrLen keys.pk = detached.status := by
  intro keys detached
  by_cases none : noCtxStr ctxStr ctxStrLen = true
  · have signed : detached = oqsSigSign p shake build' draws sig m mlen keys.sk := if_pos none
    rw [signed]
    exact (if_pos none).trans (ownVerified sig)
  · have refused : detached = ⟨sig, siglen, oqsError⟩ := if_neg none
    rw [refused]
    exact if_neg none

theorem detachedOutside (sig : Mem) {sk : Mem} {siglen ctxStrLen : UInt64} {ctxStr : Option Mem} {a : Nat}
    (beyond : (crossSigT p).size ≤ a) :
    (oqsSigSignWithCtxStr p shake build' draws sig siglen m mlen ctxStr ctxStrLen sk).sm a = sig a := by
  unfold oqsSigSignWithCtxStr
  split
  · refine Mem.writeOutside sig (.inr ?_)
    rw [(crossSigT p).length, Nat.zero_add]
    exact beyond
  · rfl

end Pointers

theorem signedMessageOpens (category : Category) (shake : Shake) :
    let p := category.parameters
    ∀ (build build' build'' : Build) (seedSk : Block p.keypairSeedLength) (draws : SignDraws p) (arrays : VerifyArrays p)
      (pk sk sm sig m received : Mem) (mlen siglen ctxStrLen : UInt64) (ctxStr : Option Mem),
      let keys := oqsSigKeypair p shake build seedSk pk sk
      let signed := cryptoSign p shake build' draws sm m mlen keys.sk
      let detached := oqsSigSignWithCtxStr p shake build' draws sig siglen m mlen ctxStr ctxStrLen keys.sk
      cryptoSignOpen p shake build'' arrays received signed.sm signed.smlen keys.pk =
          ⟨received.write 0 (m.bytes 0 mlen.toNat), mlen, 0⟩ ∧
        oqsSigVerifyWithCtxStr p shake build'' arrays m mlen detached.sm detached.smlen ctxStr ctxStrLen keys.pk = detached.status ∧
        signed.smlen = mlen + UInt64.ofNat category.lengthSignature ∧
        (∀ a, mlen.toNat + category.lengthSignature ≤ a → signed.sm a = sm a) ∧
        (∀ a, category.lengthSignature ≤ a → detached.sm a = sig a) ∧
        (∀ a, category.lengthPublicKey ≤ a → keys.pk a = pk a) ∧ ∀ a, category.lengthSecretKey ≤ a → keys.sk a = sk a := by
  intro p build build' build'' seedSk draws arrays pk sk sm sig m received mlen siglen ctxStrLen ctxStr keys signed detached
  obtain ⟨pkSize, skSize, sigSize⟩ := categorySizes category
  refine ⟨signedOpened received sm, detachedVerified sig, ?_, fun a beyond => ?_,
    fun a beyond => detachedOutside sig (sigSize ▸ beyond), fun a beyond => ?_, fun a beyond => ?_⟩
  · exact congrArg (fun size => mlen + UInt64.ofNat size) sigSize
  · have bound : mlen.toNat + ((crossSigT p).bytes (signPointers p shake build' draws keys.sk m mlen)).length ≤ a := by
      rw [(crossSigT p).length, sigSize]
      exact beyond
    refine (Mem.writeOutside _ (.inr bound)).trans (Mem.writeOutside sm (.inr ?_))
    rw [Mem.bytesLength]
    omega
  · refine Mem.writeOutside pk (.inr ?_)
    rw [(pkT p).length, pkSize, Nat.zero_add]
    exact beyond
  · refine Mem.writeOutside sk (.inr ?_)
    rw [(skT p).length, skSize, Nat.zero_add]
    exact beyond

section Prefix

theorem coveredBytes (m : Mem) (n : Nat) : shakeUpdate (m.bytes 0 n) = m.bytes 0 (n % 2 ^ 32) := by
  have parts : m.bytes 0 n = m.bytes 0 (n % 2 ^ 32) ++ m.bytes (0 + n % 2 ^ 32) (n - n % 2 ^ 32) := by
    rw [← Mem.bytesAppend, Nat.add_sub_cancel' (Nat.mod_le n _)]
  unfold shakeUpdate
  rw [Mem.bytesLength, parts]
  exact List.take_left' (Mem.bytesLength _ _ _)

theorem digestCovered {m m' : Bytes} (same : shakeUpdate m = shakeUpdate m') (digestCmt : Block p.hashLength)
    (salt : Block p.saltLength) : digestChall1 p shake m digestCmt salt = digestChall1 p shake m' digestCmt salt := by
  have absorbed : csprngInitialize m hashDomainSepConst = csprngInitialize m' hashDomainSepConst := by
    unfold csprngInitialize
    rw [same]
  unfold digestChall1 hash
  rw [absorbed]

theorem acceptableCovered {pk : PublicKey p} {m m' : Bytes} {sig : CrossSig p} (same : shakeUpdate m = shakeUpdate m')
    (acceptable : Acceptable p shake pk m sig) : Acceptable p shake pk m' sig := by
  obtain ⟨tr, here⟩ := acceptable
  have opening : tr.opening p shake pk m sig = tr.opening p shake pk m' sig := by
    unfold Transcript.opening
    rw [digestCovered same]
  exact ⟨tr, opening ▸ here⟩

end Prefix

theorem signatureCoversPrefix (category : Category) (shake : Shake) :
    let p := category.parameters
    ∀ (build build' build'' : Build) (seedSk : Block p.keypairSeedLength) (draws : SignDraws p) (arrays : VerifyArrays p)
      (pk sk sig m m' : Mem) (mlen mlen' siglen : UInt64),
      let keys := cryptoSignKeypair p shake build seedSk pk sk
      let signed := cryptoSignSignature p shake build' draws sig m mlen keys.sk
      let status := cryptoSignVerify p shake build'' arrays signed.sm siglen m' mlen' keys.pk
      let covered := m.bytes 0 (mlen.toNat % 2 ^ 32) = m'.bytes 0 (mlen'.toNat % 2 ^ 32)
      (covered → status = 0) ∧ (status = 0 → covered ∨
        let key := (pkT p).load keys.pk
        let read := (crossSigT p).load signed.sm
        ∃ tr tr', Explains p shake key read tr (tr.opening p shake key (m.bytes 0 mlen.toNat) read) ∧
          Explains p shake key read tr' (tr'.opening p shake key (m'.bytes 0 mlen'.toNat) read) ∧
          Clash shake (Calls shake (m.bytes 0 mlen.toNat) read tr (tr.opening p shake key (m.bytes 0 mlen.toNat) read))
            (Calls shake (m'.bytes 0 mlen'.toNat) read tr' (tr'.opening p shake key (m'.bytes 0 mlen'.toNat) read))) := by
  intro p build build' build'' seedSk draws arrays pk sk sig m m' mlen mlen' siglen keys signed status covered
  have honest := verifyStatus.mp (@ownVerified p shake build build' build'' seedSk draws arrays pk sk m mlen sig)
  constructor
  · intro same
    refine verifyStatus.mpr (acceptableCovered ?_ honest)
    rw [coveredBytes, coveredBytes]
    exact same
  · intro accepted
    rcases acceptableBinds category shake honest (verifyStatus.mp accepted) rfl with ⟨same, -⟩ | clash
    · left
      rwa [coveredBytes, coveredBytes] at same
    · exact .inr clash

theorem digestField (m : Mem) :
    ((crossSigT p).load m).digestChall2.toList = m.bytes (p.saltLength + p.hashLength) p.hashLength := by
  change ((m.shift p.saltLength).shift p.hashLength).bytes 0 p.hashLength = _
  rw [Mem.bytesShift, Mem.bytesShift, Nat.add_zero]

theorem openedStatus {build : Build} {arrays : VerifyArrays p} {received sm pk : Mem} {smlen mlen : UInt64}
    (length : smlen - UInt64.ofNat (crossSigT p).size = mlen)
    (opened : (cryptoSignOpen p shake build arrays received sm smlen pk).status = 0) :
    Acceptable p shake ((pkT p).load pk) (sm.bytes 0 mlen.toNat) ((crossSigT p).load (sm.shift mlen.toNat)) := by
  unfold cryptoSignOpen at opened
  dsimp only at opened
  rw [length, verifyStatus, copiedMessage] at opened
  exact opened

theorem sizeShort (category : Category) : (crossSigT category.parameters).size < 2 ^ 32 := by
  rw [(categorySizes category).2.2]
  cases category <;> decide

theorem wholeLength {smlen mlen : UInt64} {size : Nat} (length : smlen - UInt64.ofNat size = mlen) (short : mlen.toNat < 2 ^ 32)
    (small : size < 2 ^ 32) : smlen.toNat = mlen.toNat + size := by
  have whole : smlen = mlen + UInt64.ofNat size := by rw [← length, UInt64.sub_add_cancel]
  rw [whole, UInt64.toNat_add, UInt64.toNat_ofNat', Nat.mod_eq_of_lt (Nat.lt_trans small (by decide)), Nat.mod_eq_of_lt (by omega)]

theorem signedMessagesUnique (category : Category) (shake : Shake) :
    let p := category.parameters
    ∀ (build build' : Build) (arrays arrays' : VerifyArrays p) (received received' pk pk' sm sm' : Mem) (smlen smlen' : UInt64),
      let opened := cryptoSignOpen p shake build arrays received sm smlen pk
      let opened' := cryptoSignOpen p shake build' arrays' received' sm' smlen' pk'
      opened.status = 0 → opened'.status = 0 → opened.mlen.toNat < 2 ^ 32 → opened'.mlen.toNat < 2 ^ 32 →
      sm.bytes (opened.mlen.toNat + (p.saltLength + p.hashLength)) p.hashLength =
        sm'.bytes (opened'.mlen.toNat + (p.saltLength + p.hashLength)) p.hashLength →
      (smlen = smlen' ∧ sm.bytes 0 smlen.toNat = sm'.bytes 0 smlen'.toNat) ∨
        let key := (pkT p).load pk
        let key' := (pkT p).load pk'
        let sig := (crossSigT p).load (sm.shift opened.mlen.toNat)
        let sig' := (crossSigT p).load (sm'.shift opened'.mlen.toNat)
        let m := sm.bytes 0 opened.mlen.toNat
        let m' := sm'.bytes 0 opened'.mlen.toNat
        ∃ tr tr', Explains p shake key sig tr (tr.opening p shake key m sig) ∧
          Explains p shake key' sig' tr' (tr'.opening p shake key' m' sig') ∧
          Clash shake (Calls shake m sig tr (tr.opening p shake key m sig))
            (Calls shake m' sig' tr' (tr'.opening p shake key' m' sig')) := by
  intro p build build' arrays arrays' received received' pk pk' sm sm' smlen smlen' opened opened' ok ok' short short' digests
  have small : (crossSigT p).size < 2 ^ 32 := sizeShort category
  have accepted := @openedStatus p shake build arrays received sm pk smlen opened.mlen rfl ok
  have accepted' := @openedStatus p shake build' arrays' received' sm' pk' smlen' opened'.mlen rfl ok'
  have length := @wholeLength smlen opened.mlen _ rfl short small
  have length' := @wholeLength smlen' opened'.mlen _ rfl short' small
  have fields : ((crossSigT p).load (sm.shift opened.mlen.toNat)).digestChall2 =
      ((crossSigT p).load (sm'.shift opened'.mlen.toNat)).digestChall2 := by
    refine Vector.toList_inj.mp ?_
    rw [digestField, digestField, Mem.bytesShift, Mem.bytesShift]
    exact digests
  rcases acceptableBinds category shake accepted accepted' fields with ⟨message, signature⟩ | clash
  · left
    rw [coveredBytes, coveredBytes, Nat.mod_eq_of_lt short, Nat.mod_eq_of_lt short'] at message
    have lengths : opened.mlen.toNat = opened'.mlen.toNat := by
      have both := congrArg List.length message
      rwa [Mem.bytesLength, Mem.bytesLength] at both
    have bytes := congrArg (crossSigT p).bytes signature
    rw [(crossSigT p).bytesLoad, (crossSigT p).bytesLoad, Mem.bytesShift, Mem.bytesShift, Nat.add_zero, Nat.add_zero] at bytes
    refine ⟨UInt64.toNat_inj.mp (by rw [length, length', lengths]), ?_⟩
    rw [length, length', Mem.bytesAppend, Mem.bytesAppend, Nat.zero_add, Nat.zero_add, bytes]
    exact congrArg (· ++ _) message
  · exact .inr clash

theorem signedMessagesUniqueConstant :
    let p := Category.one.parameters
    let shake : Shake := fun _ _ n => Block.zero n
    let keys := cryptoSignKeypair p shake .portable (Block.zero _) Mem.zero Mem.zero
    let message := fun byte : UInt8 => Mem.ofBytes [byte]
    let signed := fun byte => cryptoSign p shake .portable ⟨Block.zero _, Block.zero _, fun _ => Block.zero _⟩
      Mem.zero (message byte) 1 keys.sk
    let key := (pkT p).load keys.pk
    let sig := fun byte => (crossSigT p).load ((signed byte).sm.shift 1)
    ∃ tr tr', Explains p shake key (sig 0) tr (tr.opening p shake key [0] (sig 0)) ∧
      Explains p shake key (sig 1) tr' (tr'.opening p shake key [1] (sig 1)) ∧
      Clash shake (Calls shake [0] (sig 0) tr (tr.opening p shake key [0] (sig 0)))
        (Calls shake [1] (sig 1) tr' (tr'.opening p shake key [1] (sig 1))) := by
  intro p shake keys message signed key sig
  let arrays : VerifyArrays p := ⟨fun _ => Block.zero _, fun _ => Vector.replicate _ 0, fun _ => Vector.replicate _ 0,
    fun _ => Vector.replicate _ 0⟩
  have opens : ∀ byte, cryptoSignOpen p shake .portable arrays Mem.zero (signed byte).sm (signed byte).smlen keys.pk =
      ⟨Mem.zero.write 0 ((message byte).bytes 0 (1 : UInt64).toNat), 1, 0⟩ := fun byte => signedOpened Mem.zero Mem.zero
  have lengths : ∀ byte, (cryptoSignOpen p shake .portable arrays Mem.zero (signed byte).sm
    (signed byte).smlen keys.pk).mlen.toNat = 1 :=
    fun byte => by rw [opens byte]; rfl
  have bytes : ∀ byte, (signed byte).sm.bytes 0 1 = [byte] := fun byte => by
    refine (Mem.writeBytesApart _ (.inl (Nat.le_refl 1))).trans ?_
    exact Mem.writeBytes Mem.zero 0 [byte]
  have digest : ∀ byte, (signed byte).sm.bytes (1 + (p.saltLength + p.hashLength)) p.hashLength =
    (Block.zero p.hashLength).toList := by
    intro byte
    have written := (crossSigT p).loadWritten (Mem.zero.write 0 ((message byte).bytes 0 1)) 1
      (signPointers p shake .portable ⟨Block.zero _, Block.zero _, fun _ => Block.zero _⟩ keys.sk (message byte) 1)
    have field := digestField (p := p) ((signed byte).sm.shift 1)
    rw [Mem.bytesShift] at field
    refine field.symm.trans ?_
    exact congrArg (fun sig : CrossSig p => sig.digestChall2.toList) written
  have result := signedMessagesUnique .one shake .portable .portable arrays arrays Mem.zero Mem.zero keys.pk keys.pk
    (signed 0).sm (signed 1).sm (signed 0).smlen (signed 1).smlen (congrArg OpenedMessage.status (opens 0))
    (congrArg OpenedMessage.status (opens 1)) (by rw [lengths]; decide) (by rw [lengths]; decide)
    (by rw [lengths, lengths]; exact (digest 0).trans (digest 1).symm)
  dsimp only at result
  rw [lengths, lengths, bytes, bytes] at result
  refine result.resolve_left fun same => ?_
  have whole : ∀ byte, (signed byte).smlen.toNat = 1 + (crossSigT p).size := fun byte =>
    @wholeLength (signed byte).smlen 1 _ (UInt64.add_sub_cancel 1 _) (by decide) (sizeShort .one)
  have front := same.2
  rw [whole, whole, Mem.bytesAppend, Mem.bytesAppend, bytes, bytes, List.singleton_append, List.singleton_append] at front
  have first : (0 : UInt8) = 1 := (List.cons.inj front).1
  exact absurd first (by decide)

end Armor.Cross
