import Armor.Cross.SchemeEquivalence

/-! Both builds accept the same signatures. Once an unpacking fails the SVE2 rounds go on with what
their arrays happen to hold, but then the flag rejects the signature. Until then the queues settle
to the rounds of the portable build. -/
namespace Armor.Cross

variable (p : Parameters) (shake : Shake) (build : Build)

theorem openSignatureAgrees (pk : PublicKey p) (m : Bytes) (sig : CrossSig p) :
    openSignature p shake build pk m sig = openSignature p shake .portable pk m sig := by
  unfold openSignature
  have rebuilt := rebuildTreeAgrees p shake build (fun _ => Block.zero _)
    (expandDigestToFixedWeight p shake sig.digestChall2) (Mem.ofBlock sig.path) sig.salt
  dsimp only
  rw [rebuilt.1, rebuilt.2]

structure SoundOpening (o : Opening p) : Prop where
  inW : MatrixInGroup o.wMat
  inV : MatrixReduced o.vTr

theorem openSignatureSound (pk : PublicKey p) (m : Bytes) (sig : CrossSig p) :
    SoundOpening p (openSignature p shake build pk m sig) where
  inW := expandPkInGroup p shake pk.seedPk
  inV := expandPkReduced p shake pk.seedPk

section Rounds

variable {o : Opening p} (sound : SoundOpening p o) (sig : CrossSig p)

include sound in
theorem reopenRoundAgrees (salt : Block p.saltLength) (i : Nat) :
    reopenRound p shake build o salt i = reopenRound p shake .portable o salt i := by
  unfold reopenRound
  dsimp only
  rw [build.normedWord p.lastFold (csprngFzInfWInGroup p shake _) sound.inW]

include sound in
theorem responseSyndromeAgrees (i : Nat) (y : FpVec p.n) {vGBar : FzVec p.m} (inG : InGroup vGBar) :
    responseSyndrome p build o i y vGBar = responseSyndrome p .portable o i y vGBar := by
  unfold responseSyndrome
  dsimp only
  rw [build.restrWord p.lastFold inG sound.inW, build.rowsAgree p.rowsInside p.lazySum (pointwiseReduced _ _) sound.inV]

structure Follows (i : Nat) (s : VerifyState p) (q : Sve2.VerifyQueues p) : Prop where
  padd : s.isPackedPaddOk = q.isPackedPaddOk
  used : s.usedRsps = q.usedRsps
  group : s.isPackedPaddOk = true → s.isSignatureOk = q.isSignatureOk
  responses : s.isPackedPaddOk = true → s.isSignatureOk = true → ∀ j < i, s.y j = q.y j
  settled1 : s.isPackedPaddOk = true → s.isSignatureOk = true →
    Batch.settle (hashOne p shake) q.queue1 q.cmts.cmt1 = s.cmts.cmt1
  settled0 : s.isPackedPaddOk = true → s.isSignatureOk = true →
    Batch.settle (hashOne p shake) q.queue0 q.cmts.cmt0 = s.cmts.cmt0
  earlier : ∀ k < q.queue1.count, (q.queue1.slot k).roundIdx < i

variable {p shake sig}

theorem settleUpdate {queue : Batch.Queue HashJob} {i : Nat} (earlier : ∀ k < queue.count, (queue.slot k).roundIdx < i)
    (out : Merkle.Digests p) (digest : Block p.hashLength) :
    Batch.settle (hashOne p shake) queue (Function.update out i digest) =
      Function.update (Batch.settle (hashOne p shake) queue out) i digest := by
  have all : ∀ count ≤ queue.count, Loop.upTo count (fun k => hashOne p shake (queue.slot k)) (Function.update out i digest) =
      Function.update (Loop.upTo count (fun k => hashOne p shake (queue.slot k)) out) i digest := by
    intro count le
    induction count with
    | zero => rfl
    | succ count ih =>
      have differ : i ≠ (queue.slot count).roundIdx := Nat.ne_of_gt (earlier count le)
      rw [Loop.upToSucc, Loop.upToSucc, ih (Nat.le_of_succ_le le), hashOne, hashOne, Function.update_comm differ]
  exact all queue.count (Nat.le_refl _)

theorem Follows.rejected {i : Nat} {s : VerifyState p} {q : Sve2.VerifyQueues p}
    (padd : s.isPackedPaddOk = q.isPackedPaddOk) (used : s.usedRsps = q.usedRsps)
    (earlier : ∀ k < q.queue1.count, (q.queue1.slot k).roundIdx < i) (failed : s.isPackedPaddOk = false) :
    Follows p shake i s q := by
  have never : s.isPackedPaddOk ≠ true := by
    rw [failed]
    exact Bool.false_ne_true
  exact ⟨padd, used, fun ok => absurd ok never, fun ok => absurd ok never, fun ok => absurd ok never,
    fun ok => absurd ok never, earlier⟩

def Room (q : Sve2.VerifyQueues p) : Prop := q.queue1.count < 2 ∧ q.queue0.count < 2

theorem pushEarlier {queue : Batch.Queue HashJob} {i : Nat} (earlier : ∀ k < queue.count, (queue.slot k).roundIdx < i)
    {job : HashJob} (here : job.roundIdx = i) : ∀ k < (queue.push job).count, ((queue.push job).slot k).roundIdx < i + 1 := by
  intro k below
  simp only [Batch.Queue.push] at below ⊢
  by_cases last : k = queue.count
  · rw [last, Function.update_self, here]
    exact Nat.lt_succ_self i
  · rw [Function.update_of_ne last]
    exact Nat.lt_succ_of_lt (earlier k (by omega))

include sound in
theorem bodyFollows (length : VectorLength) (unwritten : Sve2.Unwritten p) {i : Nat} {s : VerifyState p}
    {q : Sve2.VerifyQueues p} (follows : Follows p shake i s q) :
    Follows p shake (i + 1) (Portable.verifyRound p shake o sig i s)
      (Sve2.verifyRoundBody p shake o sig length unwritten i q) := by
  unfold Portable.verifyRound Sve2.verifyRoundBody
  by_cases opened : o.chall2 i = 1
  · rw [if_pos opened, if_pos opened]
    refine ⟨follows.padd, follows.used, follows.group, fun padd group j below => ?_, fun padd group => ?_,
      follows.settled0, pushEarlier follows.earlier rfl⟩
    · dsimp only
      rw [reopenRoundAgrees p shake (.sve2 length) sound]
      by_cases here : j = i
      · rw [here, Function.update_self, Function.update_self]
      · rw [Function.update_of_ne here, Function.update_of_ne here]
        exact follows.responses padd group j (by omega)
    · dsimp only
      rw [Batch.settlePush, follows.settled1 padd group]
      rfl
  · rw [if_neg opened, if_neg opened]
    have later : ∀ k < q.queue1.count, (q.queue1.slot k).roundIdx < i + 1 := fun k below =>
      Nat.lt_succ_of_lt (follows.earlier k below)
    rw [← follows.padd, ← follows.used]
    dsimp only
    by_cases unpacked : (s.isPackedPaddOk && (unpackFpVec p (resp0At p sig s.usedRsps).y).2 &&
        (unpackFzRsdpGVec p (resp0At p sig s.usedRsps).vGBar).2) = true
    · have accepted := unpacked
      rw [Bool.and_eq_true, Bool.and_eq_true] at accepted
      obtain ⟨⟨paddBefore, paddY⟩, paddV⟩ := accepted
      simp only [paddBefore, paddY, paddV, Bool.and_self, if_true, ← follows.group paddBefore]
      refine ⟨rfl, rfl, fun _ => rfl, fun _ group j below => ?_, fun _ group => ?_, fun _ group => ?_, later⟩
      · have groupBefore := (Bool.and_eq_true_iff.mp group).1
        dsimp only
        by_cases here : j = i
        · rw [here, Function.update_self, Function.update_self]
        · rw [Function.update_of_ne here, Function.update_of_ne here]
          exact follows.responses paddBefore groupBefore j (by omega)
      · have groupBefore := (Bool.and_eq_true_iff.mp group).1
        dsimp only
        rw [settleUpdate follows.earlier, follows.settled1 paddBefore groupBefore]
      · have both := Bool.and_eq_true_iff.mp group
        have inG := (inGroupCheck _).mp both.2
        dsimp only
        rw [Batch.settlePush, follows.settled0 paddBefore both.1, verifyJob0, verifyJob0,
          responseSyndromeAgrees p (.sve2 length) sound i _ inG]
        rfl
    · exact .rejected rfl rfl later (Bool.eq_false_iff.mpr unpacked)

theorem bodyRoom (length : VectorLength) (unwritten : Sve2.Unwritten p) (i : Nat) {q : Sve2.VerifyQueues p}
    (room : Room q) : (Sve2.verifyRoundBody p shake o sig length unwritten i q).queue1.count ≤ 2 ∧
      (Sve2.verifyRoundBody p shake o sig length unwritten i q).queue0.count ≤ 2 := by
  unfold Sve2.verifyRoundBody
  split
  · exact ⟨room.1, Nat.le_of_lt room.2⟩
  · exact ⟨Nat.le_of_lt room.1, room.2⟩

theorem flushedEarlier {queue : Batch.Queue HashJob} {i : Nat} {out : Merkle.Digests p}
    (earlier : ∀ k < queue.count, (queue.slot k).roundIdx < i) (last : Bool) :
    ∀ k < (Batch.flushWhen (hashQueued p shake id) 2 last (queue, out)).1.count,
      ((Batch.flushWhen (hashQueued p shake id) 2 last (queue, out)).1.slot k).roundIdx < i := by
  intro k below
  unfold Batch.flushWhen at below ⊢
  split at below
  · exact absurd below (Nat.not_lt_zero k)
  · rename_i kept
    rw [if_neg kept]
    exact earlier k below

theorem flushFollows (i : Nat) {r : Nat} {s : VerifyState p} {q : Sve2.VerifyQueues p} (follows : Follows p shake r s q)
    (fits1 : q.queue1.count ≤ 2) (fits0 : q.queue0.count ≤ 2) : Follows p shake r s (Sve2.verifyFlush p shake i q) := by
  have runs := hashQueuedSettles p shake (id : HashJob → HashJob)
  have flushed1 := Batch.flushSettles runs (s := (q.queue1, q.cmts.cmt1)) fits1 (decide (i = p.t - 1))
  have flushed0 := Batch.flushSettles runs (s := (q.queue0, q.cmts.cmt0)) fits0 (decide (i = p.t - 1))
  exact ⟨follows.padd, follows.used, follows.group, follows.responses,
    fun padd group => flushed1.trans (follows.settled1 padd group),
    fun padd group => flushed0.trans (follows.settled0 padd group), flushedEarlier follows.earlier _⟩

theorem flushRoom (i : Nat) {q : Sve2.VerifyQueues p} (fits1 : q.queue1.count ≤ 2) (fits0 : q.queue0.count ≤ 2) :
    Room (Sve2.verifyFlush p shake i q) :=
  ⟨Batch.flushRoom (by decide) fits1 _, Batch.flushRoom (by decide) fits0 _⟩

def Drained (q : Sve2.VerifyQueues p) : Prop := q.queue1.count = 0 ∧ q.queue0.count = 0

theorem flushDrained {i : Nat} (last : i = p.t - 1) (q : Sve2.VerifyQueues p) : Drained (Sve2.verifyFlush p shake i q) := by
  unfold Sve2.verifyFlush
  dsimp only
  rw [decide_eq_true last]
  exact ⟨Batch.flushLast _, Batch.flushLast _⟩

include sound in
theorem verifyRoundsAgree (length : VectorLength) (unwritten : Sve2.Unwritten p) (y : Nat → FpVec p.n) :
    let s := Portable.verifyRounds p shake o sig y
    let s' := Sve2.verifyRounds p shake o sig length unwritten
    s.isPackedPaddOk = s'.isPackedPaddOk ∧ (s.isPackedPaddOk = true → s.isSignatureOk = s'.isSignatureOk) ∧
      (s.isPackedPaddOk = true → s.isSignatureOk = true → (∀ j < p.t, s.y j = s'.y j) ∧ s.cmts = s'.cmts) := by
  intro s s'
  let empty : Batch.Queue HashJob := ⟨0, fun _ => ⟨0, [], 0⟩⟩
  have positive : 0 < p.t := Nat.zero_lt_of_lt p.weightBelow
  have run := Loop.upToRelated (n := p.t) (f := Portable.verifyRound p shake o sig)
    (g := fun i q => Sve2.verifyFlush p shake i (Sve2.verifyRoundBody p shake o sig length unwritten i q))
    (s := ⟨y, Commitments.zero p, 0, true, true⟩) (t := ⟨⟨unwritten.y, Commitments.zero p, 0, true, true⟩, empty, empty⟩)
    (fun i s q => Follows p shake i s q ∧ Room q ∧ (i = p.t → Drained q))
    ⟨⟨rfl, rfl, fun _ => rfl, fun _ _ j below => absurd below (Nat.not_lt_zero j), fun _ _ => rfl, fun _ _ => rfl,
      fun k below => absurd below (Nat.not_lt_zero k)⟩, ⟨Nat.two_pos, Nat.two_pos⟩, fun none => by omega⟩
    fun i below s q ⟨follows, room, _⟩ => by
      have fits := @bodyRoom p shake o sig length unwritten i q room
      exact ⟨flushFollows i (bodyFollows sound length unwritten follows) fits.1 fits.2, flushRoom i fits.1 fits.2,
        fun last => flushDrained (by omega) _⟩
  obtain ⟨follows, -, drained⟩ := run
  have empty1 := (drained rfl).1
  have empty0 := (drained rfl).2
  refine ⟨follows.padd, follows.group, fun padd group => ⟨follows.responses padd group, ?_⟩⟩
  have cmt1 := follows.settled1 padd group
  have cmt0 := follows.settled0 padd group
  rw [Batch.settleEmpty _ empty1] at cmt1
  rw [Batch.settleEmpty _ empty0] at cmt0
  change (⟨s.cmts.cmt0, s.cmts.cmt1⟩ : Commitments p) = _
  change _ = s.cmts.cmt1 at cmt1
  change _ = s.cmts.cmt0 at cmt0
  rw [← cmt1, ← cmt0]
  rfl

end Rounds

theorem contiguousCongr {len : Nat} {entry entry' : Nat → Block len} (same : ∀ i < p.t, entry i = entry' i) :
    contiguous p entry = contiguous p entry' := by
  unfold contiguous
  exact List.flatMap_congr fun i member => by rw [same i (List.mem_range.mp member)]

theorem digestChall2Congr {y y' : Nat → FpVec p.n} (same : ∀ i < p.t, y i = y' i) (digest1 : Block p.hashLength) :
    digestChall2 p shake y digest1 = digestChall2 p shake y' digest1 := by
  rw [digestChall2, digestChall2, contiguousCongr p fun i below => by rw [same i below]]

theorem acceptedFlags {o : Opening p} {sig : CrossSig p} {s : VerifyState p} {tree : Merkle.Digests p}
    (accepted : verdict p shake build o sig s tree = true) : s.isSignatureOk = true ∧ s.isPackedPaddOk = true := by
  unfold verdict at accepted
  simp only [Bool.and_eq_true] at accepted
  exact ⟨accepted.1.1.1.1.1.1, accepted.2⟩

theorem verdictAgrees {o : Opening p} (sig : CrossSig p) (c : Challenge p) (opened : o.chall2 = c.array)
    (zero : ∃ cnt < p.t, c.array cnt = 0) {s s' : VerifyState p} (flags : s.isSignatureOk = s'.isSignatureOk)
    (padd : s.isPackedPaddOk = s'.isPackedPaddOk) (responses : ∀ j < p.t, s.y j = s'.y j) (cmts : s.cmts = s'.cmts)
    (tree tree' : Merkle.Digests p) :
    verdict p shake build o sig s' tree' = verdict p shake .portable o sig s tree := by
  have roots := recomputeRootAgrees p shake build tree' tree s.cmts.cmt0 (Mem.ofBlock sig.proof) c zero
  unfold verdict
  dsimp only
  rw [opened, ← flags, ← padd, ← cmts, roots.1, roots.2, digestChall2Congr p shake responses]

theorem crossVerifyAgrees (length : VectorLength) (pk : PublicKey p) (m : Bytes) (sig : CrossSig p)
    (tree tree' : Merkle.Digests p) (y : Nat → FpVec p.n) (unwritten : Sve2.Unwritten p) :
    Sve2.crossVerify p shake length pk m sig tree' unwritten = true ↔
      Portable.crossVerify p shake pk m sig tree y = true := by
  unfold Sve2.crossVerify Portable.crossVerify
  dsimp only
  rw [openSignatureAgrees p shake (.sve2 length)]
  have sound := openSignatureSound p shake .portable pk m sig
  have challenge : (openSignature p shake .portable pk m sig).chall2 = (challengeOf p shake sig.digestChall2).array :=
    (challengeOfArray p shake sig.digestChall2).symm
  have zero := challengeOfZero p shake sig.digestChall2
  generalize openSignature p shake .portable pk m sig = o at sound challenge
  obtain ⟨padd, group, rest⟩ := @verifyRoundsAgree p shake o sound sig length unwritten y
  have same : (Portable.verifyRounds p shake o sig y).isPackedPaddOk = true →
      (Portable.verifyRounds p shake o sig y).isSignatureOk = true →
      verdict p shake (.sve2 length) o sig (Sve2.verifyRounds p shake o sig length unwritten) tree' =
        verdict p shake .portable o sig (Portable.verifyRounds p shake o sig y) tree := by
    intro paddOk groupOk
    obtain ⟨responses, cmts⟩ := rest paddOk groupOk
    exact verdictAgrees p shake (.sve2 length) sig _ challenge zero (group paddOk) padd responses cmts tree tree'
  constructor
  · intro accepted
    have flags := acceptedFlags p shake (.sve2 length) accepted
    rw [← padd] at flags
    rw [← group flags.2] at flags
    rwa [same flags.2 flags.1] at accepted
  · intro accepted
    have flags := acceptedFlags p shake .portable accepted
    rwa [same flags.2 flags.1]

theorem sve2VerifyPortable (category : Category) (shake : Shake) (length : VectorLength)
    (pk : PublicKey category.parameters) (m : Bytes) (sig : CrossSig category.parameters)
    (tree tree' : Merkle.Digests category.parameters) (y : Nat → FpVec category.parameters.n)
    (unwritten : Sve2.Unwritten category.parameters) :
    Sve2.crossVerify category.parameters shake length pk m sig tree' unwritten = true ↔
      Portable.crossVerify category.parameters shake pk m sig tree y = true :=
  crossVerifyAgrees category.parameters shake length pk m sig tree tree' y unwritten

end Armor.Cross
