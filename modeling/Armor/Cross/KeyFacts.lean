import Armor.Cross.Binding
import Armor.Cross.Knowledge

/-! What verification and signing ask of a key: the public syndrome counts modulo 509 only, and the
randomness of a signature must never serve for a second one. -/
namespace Armor.Cross

variable {p : Parameters} (shake : Shake)

theorem responseResidues {o o' : Opening p} (pk : o.toExpandedPk = o'.toExpandedPk) (chall1 : o.chall1 = o'.chall1)
    (low : ∀ i, (chall1At p o.chall1 i).toNat < 512) (small : ∀ j : Fin (p.n - p.k), o.s[j].toNat < 512)
    (small' : ∀ j : Fin (p.n - p.k), o'.s[j].toNat < 512)
    (same : ∀ j : Fin (p.n - p.k), o.s[j].toNat % 509 = o'.s[j].toNat % 509) (i : Nat) (y : FpVec p.n) (vGBar : FzVec p.m) :
    responseSyndrome p .portable o i y vGBar = responseSyndrome p .portable o' i y vGBar := by
  rw [responseSyndromeOpened, responseSyndromeOpened, pk, ← chall1]
  unfold openedSyndrome
  dsimp only
  rw [syndromeResidues (low i) small small' same]

theorem residuesExplain {seedPk : Block p.keypairSeedLength} {m : Bytes} {sig : CrossSig p} {s s' : FpVec (p.n - p.k)}
    (small : ∀ j : Fin (p.n - p.k), s[j].toNat < 512) (small' : ∀ j : Fin (p.n - p.k), s'[j].toNat < 512)
    (same : ∀ j : Fin (p.n - p.k), s[j].toNat % 509 = s'[j].toNat % 509)
    (acceptable : Acceptable p shake ⟨seedPk, packFpSyn p s⟩ m sig) : Acceptable p shake ⟨seedPk, packFpSyn p s'⟩ m sig := by
  obtain ⟨tr, here⟩ := acceptable
  have packed := (fpSynCanonical p _ _).mpr ⟨here.keyRange, here.key⟩
  have own : s = tr.s := congrArg Prod.fst ((unpackFpSynPacked p small).symm.trans packed)
  let tr' : Transcript p := { tr with s := s' }
  let o := tr.opening p shake ⟨seedPk, packFpSyn p s⟩ m sig
  let o' := tr'.opening p shake ⟨seedPk, packFpSyn p s'⟩ m sig
  have low : ∀ i, (chall1At p o.chall1 i).toNat < 512 := chall1Low p shake _
  have residue : ∀ j : Fin (p.n - p.k), tr.s[j].toNat % 509 = s'[j].toNat % 509 := fun j => by rw [← own, same j]
  have alike : ∀ i, responseSyndrome p .portable o i (tr.y i) (tr.vGBar i) =
      responseSyndrome p .portable o' i (tr.y i) (tr.vGBar i) := fun i =>
    @responseResidues p o o' rfl rfl low here.keyRange small' residue i (tr.y i) (tr.vGBar i)
  exact ⟨tr', { here with
    key := rfl
    keyRange := small'
    answered := fun i inside zero => by
      have answered := here.answered i inside zero
      rwa [show tr.opening p shake ⟨seedPk, packFpSyn p s⟩ m sig = o from rfl, alike] at answered }⟩

theorem keysModulo (category : Category) (shake : Shake) :
    let p := category.parameters
    ∀ (build : Build) (seedPk : Block p.keypairSeedLength) (s : {s : FpVec (p.n - p.k) // ∀ j : Fin (p.n - p.k), s[j].toNat < 512})
      (m : Bytes) (sig : CrossSig p),
      build.Accepts p shake ⟨seedPk, packFpSyn p s.val⟩ m sig ↔
        build.Accepts p shake ⟨seedPk, packFpSyn p (residues s.val)⟩ m sig := by
  intro p build seedPk s m sig
  have small' : ∀ j : Fin (p.n - p.k), (residues s.val)[j].toNat < 512 := fun j =>
    Nat.lt_trans (residuesReduced s.val j) (by decide)
  have same : ∀ j : Fin (p.n - p.k), s.val[j].toNat % 509 = (residues s.val)[j].toNat % 509 := fun j => by
    rw [residuesNat, Nat.mod_mod]
  rw [acceptsIff, acceptsIff]
  exact ⟨residuesExplain shake s.property small' same, residuesExplain shake small' s.property fun j => (same j).symm⟩

variable (p) (build : Build)

def seedShare (pk : PublicKey p) (m : Bytes) (sig : CrossSig p) (i : Nat) : FzVec p.m :=
  (sampledMask shake ((openSignature p shake build pk m sig).roundSeeds i) sig.salt i).eGBarPrime

def responseShare (sig : CrossSig p) (i : Nat) : FzVec p.m :=
  (unpackFzRsdpGVec p (resp0At p sig (zerosBefore (expandDigestToFixedWeight p shake sig.digestChall2) i)).vGBar).1

variable {p} {shake}

theorem sameOrCrossed {c c' : Challenge p} (weight : c.weight = c'.weight) :
    (∀ i < p.t, c.array i = c'.array i) ∨ ∃ i < p.t, c.array i = 1 ∧ c'.array i = 0 := by
  by_cases crossed : ∃ i < p.t, c.array i = 1 ∧ c'.array i = 0
  · exact .inr crossed
  · left
    push Not at crossed
    have inclusion : ((Finset.range p.t).filter fun i => c.array i = 1) ⊆ (Finset.range p.t).filter fun i => c'.array i = 1 := by
      intro i member
      obtain ⟨inside, one⟩ := Finset.mem_filter.mp member
      have below := Finset.mem_range.mp inside
      exact Finset.mem_filter.mpr ⟨inside, (c'.arrayBinary i below).resolve_left (crossed i below one)⟩
    have ones := Finset.eq_of_subset_of_card_le inclusion (Nat.le_of_eq weight.symm)
    intro i below
    have member : ∀ d : Challenge p, i ∈ ((Finset.range p.t).filter fun i => d.array i = 1) ↔ d.array i = 1 := fun d => by
      rw [Finset.mem_filter, Finset.mem_range]
      exact and_iff_right below
    have both : c.array i = 1 ↔ c'.array i = 1 := by rw [← member c, ← member c', ones]
    rcases c.arrayBinary i below with zero | one
    · rcases c'.arrayBinary i below with zero' | one'
      · rw [zero, zero']
      · rw [both.mpr one', one']
    · rw [one, both.mp one]

theorem fixedSeeds {seedSk : Block p.keypairSeedLength} (pk : PublicKey p) (m : Bytes) (rootSeed : Block p.seedLength)
    (salt : Block p.saltLength) (merkleTree0 : Merkle.Digests p) {i : Nat} (inside : i < p.t) :
    let sig := crossSign p shake .portable ⟨seedSk⟩ m rootSeed salt merkleTree0
    let tree := (Build.portable.genSeedTree p shake ⟨fun _ => Block.zero _, []⟩ rootSeed salt).cell
    (challengeOf p shake sig.digestChall2).array i = 1 → (openSignature p shake .portable pk m sig).roundSeeds i =
      SeedTree.seedLeaves p (fun _ => Block.zero _) tree i := by
  intro sig tree one
  have array := challengeOfArray p shake sig.digestChall2
  have reopened := pathReopens p shake (challengeOf p shake sig.digestChall2) (challengeOfWeight p shake sig.digestChall2)
    (challengeOfZero p shake sig.digestChall2) rootSeed salt ⟨fun _ => Block.zero _, []⟩ (fun _ => Block.zero _)
    (fun _ => Block.zero _)
  have seeds := reopened.2 i inside one
  rw [array] at seeds
  exact seeds

theorem publishedShare {seedSk : Block p.keypairSeedLength} (m : Bytes) (rootSeed : Block p.seedLength)
    (salt : Block p.saltLength) (merkleTree0 : Merkle.Digests p) {i : Nat} (inside : i < p.t) :
    let sig := crossSign p shake .portable ⟨seedSk⟩ m rootSeed salt merkleTree0
    let tree := (Build.portable.genSeedTree p shake ⟨fun _ => Block.zero _, []⟩ rootSeed salt).cell
    (challengeOf p shake sig.digestChall2).array i = 0 → responseShare p shake sig i =
      (maskRound .portable (expandSk p shake .portable seedSk)
        (sampledMask shake (SeedTree.seedLeaves p (fun _ => Block.zero _) tree i) salt i)).vGBar := by
  intro sig tree zero
  let sk := expandSk p shake .portable seedSk
  let seeds := SeedTree.seedLeaves p (fun _ => Block.zero _) tree
  let rounds := honestRounds shake sk salt seeds
  have sound := expandSkSound p shake .portable seedSk
  have array := challengeOfArray p shake sig.digestChall2
  have published := publishedAt p (challengeOf p shake sig.digestChall2) (challengeOfWeight p shake sig.digestChall2)
    (firstResponse p (expandChall1 p shake (digestChall1 p shake m sig.digestCmt salt)) rounds) rounds
    (Portable.commitRounds p shake salt seeds rounds).cmt1 i inside zero
  have inG : InGroup (rounds i).vGBar :=
    fzDzNormInGroup (fzVecSubRedundant sound.inG.redundant (csprngFzInfWInGroup p shake _).redundant)
  have carried := congrArg Resp0.vGBar published.1
  rw [array] at carried
  have own : (resp0At p sig (zerosBefore (expandDigestToFixedWeight p shake sig.digestChall2) i)).vGBar =
      packFzRsdpGVec p (rounds i).vGBar := carried
  unfold responseShare
  rw [own, unpackFzRsdpGVecPacked p fun j => Nat.lt_trans (inG j) (by decide)]
  exact congrArg Round.vGBar (signRoundMask .portable shake sk salt (seeds i) i)

theorem reuseReveals (category : Category) (shake : Shake) (build : Build) :
    let p := category.parameters
    ∀ (seedSk : Block p.keypairSeedLength) (rootSeed : Block p.seedLength) (salt : Block p.saltLength) (m m' : Bytes)
      (merkleTree0 merkleTree0' : Merkle.Digests p),
      let keys := crossKeygen p shake build seedSk
      let sig := crossSign p shake build keys.1 m rootSeed salt merkleTree0
      let sig' := crossSign p shake build keys.1 m' rootSeed salt merkleTree0'
      (∀ i < p.t, expandDigestToFixedWeight p shake sig.digestChall2 i = expandDigestToFixedWeight p shake sig'.digestChall2 i) ∨
        ∃ i < p.t, expandDigestToFixedWeight p shake sig.digestChall2 i = 1 ∧
          expandDigestToFixedWeight p shake sig'.digestChall2 i = 0 ∧
          fzVecSum (responseShare p shake sig' i) (seedShare p shake build keys.2 m sig i) =
            (expandSk p shake build seedSk).eGBar := by
  intro p seedSk rootSeed salt m m' merkleTree0 merkleTree0' keys sig sig'
  have signed : sig = crossSign p shake .portable keys.1 m rootSeed salt merkleTree0 :=
    crossSignAgrees p shake build keys.1 m rootSeed salt merkleTree0 merkleTree0
  have signed' : sig' = crossSign p shake .portable keys.1 m' rootSeed salt merkleTree0' :=
    crossSignAgrees p shake build keys.1 m' rootSeed salt merkleTree0' merkleTree0'
  have weight := (challengeOfWeight p shake sig.digestChall2).trans (challengeOfWeight p shake sig'.digestChall2).symm
  have array := challengeOfArray p shake sig.digestChall2
  have array' := challengeOfArray p shake sig'.digestChall2
  rcases sameOrCrossed weight with same | ⟨i, inside, one, zero⟩
  · left
    rw [← array, ← array']
    exact same
  · right
    refine ⟨i, inside, by rw [← array]; exact one, by rw [← array']; exact zero, ?_⟩
    have secret : keys.1 = ⟨seedSk⟩ := rfl
    rw [secret] at signed signed'
    rw [signed] at one
    rw [signed'] at zero
    have seed := fixedSeeds keys.2 m rootSeed salt merkleTree0 inside one
    have share := publishedShare m' rootSeed salt merkleTree0' inside zero
    have opened : seedShare p shake build keys.2 m sig i = (sampledMask shake (SeedTree.seedLeaves p (fun _ => Block.zero _)
        (Build.portable.genSeedTree p shake ⟨fun _ => Block.zero _, []⟩ rootSeed salt).cell i) salt i).eGBarPrime := by
      unfold seedShare
      rw [openSignatureAgrees p shake build, signed]
      rw [seed]
      rfl
    have sound := expandSkSound p shake .portable seedSk
    rw [opened, signed', share, expandSkAgrees p shake build]
    generalize sampledMask shake (SeedTree.seedLeaves p (fun _ => Block.zero _)
      (Build.portable.genSeedTree p shake ⟨fun _ => Block.zero _, []⟩ rootSeed salt).cell i) salt i = mask
    refine Vector.ext fun j below => UInt8.toNat_inj.mp ?_
    have sum := fzVecSumNat (maskRound .portable (expandSk p shake .portable seedSk) mask).vGBar mask.eGBarPrime ⟨j, below⟩
    have word := respondWord .portable sound ⟨0, by decide⟩ mask ⟨j, below⟩
    exact sum.trans (word.trans (Nat.mod_eq_of_lt (sound.inG ⟨j, below⟩)))

end Armor.Cross
