import Armor.Cross.Acceptance

/-! What the second challenge digest of an accepted signature fixes: the message and every byte of the
signature. Otherwise two calls of the extendable-output function made by the two verifications absorb
different bytes and squeeze the same ones. -/
namespace Armor.Cross

variable {p : Parameters} (shake : Shake)

theorem absorbedInput {a b : Bytes} {dsc dsc' : UInt16}
    (same : (csprngInitialize a dsc).absorbed = (csprngInitialize b dsc').absorbed) : shakeUpdate a = shakeUpdate b :=
  (List.append_inj' same rfl).1

theorem shakeUpdateShort {a : Bytes} (short : a.length < 2 ^ 32) : shakeUpdate a = a := by
  rw [shakeUpdate, Nat.mod_eq_of_lt short, List.take_length]

theorem absorbedShort {a b : Bytes} {dsc dsc' : UInt16} (shortA : a.length < 2 ^ 32) (shortB : b.length < 2 ^ 32)
    (same : (csprngInitialize a dsc).absorbed = (csprngInitialize b dsc').absorbed) : a = b := by
  have updates := absorbedInput same
  rwa [shakeUpdateShort shortA, shakeUpdateShort shortB] at updates

/-- All inputs but the message stay below the `unsigned int` of `xof_shake_update`. -/
structure Short (p : Parameters) : Prop where
  node : p.seedLength + p.saltLength < 2 ^ 32
  digests : p.hashLength + p.hashLength + p.saltLength < 2 ^ 32
  commitment : p.denselyPackedFpSynSize + p.denselyPackedFzRsdpGVecSize + p.saltLength < 2 ^ 32
  commitments : p.t * p.hashLength < 2 ^ 32
  responses : p.t * p.denselyPackedFpVecSize + p.hashLength < 2 ^ 32

theorem categoryShort (category : Category) : Short category.parameters := by
  cases category <;> constructor <;> decide

structure XofCall where
  absorbed : Bytes
  length : Nat

def hashCall (p : Parameters) (input : Bytes) (dsc : UInt16) : XofCall := ⟨(csprngInitialize input dsc).absorbed, p.hashLength⟩

def expandCall (p : Parameters) (salt : Block p.saltLength) (node : Nat) (seed : Block p.seedLength) : XofCall :=
  ⟨(csprngInitialize (SeedTree.csprngInput p seed salt) (SeedTree.nodeDsc node)).absorbed, 2 * p.seedLength⟩

def commitmentInput (sig : CrossSig p) (tr : Transcript p) (o : Opening p) (i : Nat) : Bytes :=
  cmt0Input p (responseSyndrome p .portable o i (tr.y i) (tr.vGBar i)) (packFzRsdpGVec p (tr.vGBar i)) sig.salt

inductive Calls (m : Bytes) (sig : CrossSig p) (tr : Transcript p) (o : Opening p) : XofCall → Prop where
  | message : Calls m sig tr o (hashCall p m hashDomainSepConst)
  | challenge1 : Calls m sig tr o (hashCall p
      ((hash p shake m hashDomainSepConst).toList ++ sig.digestCmt.toList ++ sig.salt.toList) hashDomainSepConst)
  | node (n : Nat) (inside : n < p.layout.numNodes) (own : SeedTree.published p.layout o.chall2 n = true)
      (isInner : p.layout.tree.inner n = true) : Calls m sig tr o (expandCall p sig.salt n (tr.seed n))
  | seed (i : Nat) (inside : i < p.t) (one : o.chall2 i = 1) :
      Calls m sig tr o (hashCall p (cmt1Input p (o.roundSeeds i) sig.salt) (roundHashDsc p i))
  | answer (i : Nat) (inside : i < p.t) (zero : o.chall2 i = 0) :
      Calls m sig tr o (hashCall p (commitmentInput sig tr o i) (roundHashDsc p i))
  | pair (n : Nat) (inside : n < p.layout.numNodes) (own : Merkle.known p.layout o.chall2 n = true)
      (isInner : p.layout.tree.inner n = true) : Calls m sig tr o (hashCall p
        ((tr.digest (p.layout.tree.left n)).toList ++ (tr.digest (p.layout.tree.left n + 1)).toList) hashDomainSepConst)
  | commitments : Calls m sig tr o (hashCall p (contiguous p tr.cmts.cmt1) hashDomainSepConst)
  | root : Calls m sig tr o (hashCall p
      ((tr.digest 0).toList ++ (hash p shake (contiguous p tr.cmts.cmt1) hashDomainSepConst).toList) hashDomainSepConst)
  | responses : Calls m sig tr o (hashCall p
      (contiguous p (fun x => packFpVec p (tr.y x)) ++ o.digest1.toList) hashDomainSepConst)

def Apart (calls calls' : XofCall → Prop) : Prop :=
  ∀ a b, calls a → calls' b → a.length = b.length → shake a.absorbed 0 a.length = shake b.absorbed 0 a.length →
    a.absorbed = b.absorbed

def Clash (calls calls' : XofCall → Prop) : Prop :=
  ∃ a b, calls a ∧ calls' b ∧ a.length = b.length ∧ a.absorbed ≠ b.absorbed ∧
    shake a.absorbed 0 a.length = shake b.absorbed 0 a.length

theorem apartOrClash (calls calls' : XofCall → Prop) : Apart shake calls calls' ∨ Clash shake calls calls' := by
  by_cases apart : Apart shake calls calls'
  · exact .inl apart
  · right
    unfold Apart at apart
    push Not at apart
    obtain ⟨a, b, here, there, length, same, differ⟩ := apart
    exact ⟨a, b, here, there, length, differ, same⟩

variable {shake}

theorem apartHash {calls calls' : XofCall → Prop} (apart : Apart shake calls calls') {a b : Bytes} {dsc dsc' : UInt16}
    (here : calls (hashCall p a dsc)) (there : calls' (hashCall p b dsc'))
    (same : hash p shake a dsc = hash p shake b dsc') :
    (csprngInitialize a dsc).absorbed = (csprngInitialize b dsc').absorbed :=
  apart _ _ here there rfl same

theorem blocksAppend {a b : Nat} {x x' : Block a} {y y' : Block b} (same : x.toList ++ y.toList = x'.toList ++ y'.toList) :
    x = x' ∧ y = y' := by
  have parts := List.append_inj same (by rw [Vector.length_toList, Vector.length_toList])
  exact ⟨Vector.toList_inj.mp parts.1, Vector.toList_inj.mp parts.2⟩

theorem contiguousBlocks {len : Nat} {entry entry' : Nat → Block len} (same : contiguous p entry = contiguous p entry') :
    ∀ i < p.t, entry i = entry' i := by
  have run : ∀ n, ((List.range n).flatMap fun i => (entry i).toList) = ((List.range n).flatMap fun i => (entry' i).toList) →
      ∀ i < n, entry i = entry' i := by
    intro n
    induction n with
    | zero => exact fun _ i below => absurd below (Nat.not_lt_zero i)
    | succ n ih =>
      intro same i below
      rw [List.range_succ, List.flatMap_append, List.flatMap_append] at same
      obtain ⟨before, here⟩ := List.append_inj' same (by
        simp only [List.flatMap_cons, List.flatMap_nil, List.append_nil, Vector.length_toList])
      rcases Nat.lt_succ_iff_lt_or_eq.mp below with lower | rfl
      · exact ih before i lower
      · simp only [List.flatMap_cons, List.flatMap_nil, List.append_nil] at here
        exact Vector.toList_inj.mp here
  exact run p.t same

theorem contiguousLength {len : Nat} (entry : Nat → Block len) : (contiguous p entry).length = p.t * len := by
  have run : ∀ n, ((List.range n).flatMap fun i => (entry i).toList).length = n * len := by
    intro n
    induction n with
    | zero => rw [Nat.zero_mul]; rfl
    | succ n ih =>
      rw [List.range_succ, List.flatMap_append, List.length_append, ih, Nat.succ_mul]
      simp only [List.flatMap_cons, List.flatMap_nil, List.append_nil, Vector.length_toList]
  exact run p.t

theorem halvesSame {n : Nat} {b b' : Block (2 * n)} (first : b.fst = b'.fst) (second : b.snd = b'.snd) : b = b' := by
  refine Vector.ext fun i inside => ?_
  rcases Nat.lt_or_ge i n with low | high
  · have here : b.fst[i] = b'.fst[i] := by rw [first]
    simpa only [Block.fst, Vector.getElem_ofFn] using here
  · have within : i - n < n := by omega
    have here : b.snd[i - n] = b'.snd[i - n] := by rw [second]
    simpa only [Block.snd, Vector.getElem_ofFn, Nat.add_sub_cancel' high] using here

theorem storageSame {len count total : Nat} {b b' : Block (total * len)}
    (slots : ∀ i < count, (Mem.ofBlock b).slot len i = (Mem.ofBlock b').slot len i)
    (rest : ∀ a, count * len ≤ a → a < total * len → Mem.ofBlock b a = 0)
    (rest' : ∀ a, count * len ≤ a → a < total * len → Mem.ofBlock b' a = 0) : b = b' := by
  refine Vector.ext fun a inside => ?_
  rw [← Mem.ofBlockAt b inside, ← Mem.ofBlockAt b' inside]
  rcases Nat.lt_or_ge a (count * len) with low | beyond
  · have positive : 0 < len := Nat.pos_of_ne_zero fun zero => by
      rw [zero, Nat.mul_zero] at low
      exact absurd low (Nat.not_lt_zero a)
    have below := Nat.div_lt_of_lt_mul (by rwa [Nat.mul_comm] at low)
    have within := Nat.mod_lt a positive
    have here : ((Mem.ofBlock b).slot len (a / len))[a % len] = ((Mem.ofBlock b').slot len (a / len))[a % len] := by
      rw [slots _ below]
    rwa [Mem.slotAt within, Mem.slotAt within, Nat.div_add_mod'] at here
  · rw [rest a beyond inside, rest' a beyond inside]

theorem zerosBeforeHits (c : Challenge p) (fixed : c.weight = p.w) {r : Nat} (below : r < p.t - p.w) :
    ∃ i < p.t, c.array i = 0 ∧ zerosBefore c.array i = r := by
  have run : ∀ n, r < zerosBefore c.array n → ∃ i < n, c.array i = 0 ∧ zerosBefore c.array i = r := by
    intro n
    induction n with
    | zero => exact fun none_ => absurd none_ (by rw [zerosBefore, Finset.range_zero, Finset.filter_empty]; exact Nat.not_lt_zero r)
    | succ n ih =>
      intro above
      have step := zerosBeforeSucc c.array n
      by_cases reached : r < zerosBefore c.array n
      · obtain ⟨i, inside, zero, here⟩ := ih reached
        exact ⟨i, by omega, zero, here⟩
      · by_cases zero : c.array n = 0
        · rw [if_pos zero] at step
          exact ⟨n, Nat.lt_succ_self n, zero, by omega⟩
        · rw [if_neg zero] at step
          omega
  refine run p.t ?_
  rwa [zerosBefore, c.zeros, fixed]

structure Twins (shake : Shake) (c : Challenge p) (pk pk' : PublicKey p) (m m' : Bytes) (sig sig' : CrossSig p)
    (tr tr' : Transcript p) (o o' : Opening p) : Prop where
  short : Short p
  fixed : c.weight = p.w
  here : Explains p shake pk sig tr o
  there : Explains p shake pk' sig' tr' o'
  array : o.chall2 = c.array
  array' : o'.chall2 = c.array
  digest1 : o.digest1 = Cross.digestChall1 p shake m sig.digestCmt sig.salt
  digest1' : o'.digest1 = Cross.digestChall1 p shake m' sig'.digestCmt sig'.salt
  seeds : ∀ i, o.roundSeeds i = tr.seed (p.layout.leafNode i)
  seeds' : ∀ i, o'.roundSeeds i = tr'.seed (p.layout.leafNode i)
  apart : Apart shake (Calls shake m sig tr o) (Calls shake m' sig' tr' o')
  digest : sig.digestChall2 = sig'.digestChall2

namespace Twins

variable {c : Challenge p} {pk pk' : PublicKey p} {m m' : Bytes} {sig sig' : CrossSig p} {tr tr' : Transcript p}
  {o o' : Opening p} (twins : Twins shake c pk pk' m m' sig sig' tr tr' o o')

include twins

theorem responses : (∀ i < p.t, packFpVec p (tr.y i) = packFpVec p (tr'.y i)) ∧ o.digest1 = o'.digest1 := by
  have same := twins.here.digestChall2.trans (twins.digest.trans twins.there.digestChall2.symm)
  have absorbed := apartHash twins.apart .responses .responses same
  have length : ∀ (y : Nat → FpVec p.n) (digest1 : Block p.hashLength),
      (contiguous p (fun x => packFpVec p (y x)) ++ digest1.toList).length < 2 ^ 32 := by
    intro y digest1
    rw [List.length_append, contiguousLength, Vector.length_toList]
    exact twins.short.responses
  have inputs := absorbedShort (length _ _) (length _ _) absorbed
  have parts := List.append_inj inputs (by rw [contiguousLength, contiguousLength])
  exact ⟨contiguousBlocks parts.1, Vector.toList_inj.mp parts.2⟩

theorem message : shakeUpdate m = shakeUpdate m' ∧ sig.digestCmt = sig'.digestCmt ∧ sig.salt = sig'.salt := by
  have same := twins.digest1.symm.trans (twins.responses.2.trans twins.digest1')
  have absorbed := apartHash twins.apart .challenge1 .challenge1 same
  have length : ∀ digestMsg digestCmt salt : Block p.hashLength,
      (digestMsg.toList ++ digestCmt.toList ++ salt.toList).length < 2 ^ 32 := by
    intro digestMsg digestCmt salt
    rw [List.length_append, List.length_append, Vector.length_toList, Vector.length_toList, Vector.length_toList]
    exact twins.short.digests
  have inputs := absorbedShort (length _ _ _) (length _ _ _) absorbed
  have parts := List.append_inj' inputs (by rw [Vector.length_toList, Vector.length_toList])
  have digests := blocksAppend parts.1
  exact ⟨absorbedInput (apartHash twins.apart .message .message digests.1), digests.2, Vector.toList_inj.mp parts.2⟩

theorem commitments : tr.digest 0 = tr'.digest 0 ∧ ∀ i < p.t, tr.cmts.cmt1 i = tr'.cmts.cmt1 i := by
  have same := twins.here.digestCmt.trans (twins.message.2.1.trans twins.there.digestCmt.symm)
  have absorbed := apartHash twins.apart .root .root same
  have length : ∀ root digest1 : Block p.hashLength, (root.toList ++ digest1.toList).length < 2 ^ 32 := by
    intro root digest1
    rw [List.length_append, Vector.length_toList, Vector.length_toList]
    exact Nat.lt_of_le_of_lt (Nat.le_add_right _ _) twins.short.digests
  have digests := blocksAppend (absorbedShort (length _ _) (length _ _) absorbed)
  have entries := apartHash twins.apart .commitments .commitments digests.2
  have whole : ∀ cmt1 : Merkle.Digests p, (contiguous p cmt1).length < 2 ^ 32 := by
    intro cmt1
    rw [contiguousLength]
    exact twins.short.commitments
  exact ⟨digests.1, contiguousBlocks (absorbedShort (whole _) (whole _) entries)⟩

theorem proof : sig.proof = sig'.proof ∧ ∀ i < p.t, c.array i = 0 → tr.cmts.cmt0 i = tr'.cmts.cmt0 i := by
  have here := twins.here.proof
  have there := twins.there.proof
  rw [twins.array] at here
  rw [twins.array'] at there
  have length : ∀ left right : Block p.hashLength, (left.toList ++ right.toList).length < 2 ^ 32 := by
    intro left right
    rw [List.length_append, Vector.length_toList, Vector.length_toList]
    exact Nat.lt_of_le_of_lt (Nat.le_add_right _ _) twins.short.digests
  have bound := p.layout.tree.authenticBinding (Merkle.knownSettled p.layout c.array) here there twins.commitments.1
    fun n inside isInner own same => blocksAppend (absorbedShort (length _ _) (length _ _) (apartHash twins.apart
      (.pair n inside (by rw [twins.array]; exact own) isInner)
      (.pair n inside (by rw [twins.array']; exact own) isInner) same))
  refine ⟨storageSame bound.2 ?_ ?_, fun i inside zero => ?_⟩
  · have rest := twins.here.proofRest
    rw [twins.array] at rest
    exact rest
  · have rest := twins.there.proofRest
    rw [twins.array'] at rest
    exact rest
  · have leaf := p.layout.leafNodeInside inside
    have agree := bound.1 _ leaf.1 leaf.2 (by rw [Merkle.knownLeaf p.layout _ inside, zero]; rfl)
    have one := (p.layout.leafLoopScatter (fun cnt _ => tr.cmts.cmt0 cnt) (fun _ => Block.zero _)).1 i inside
    have other := (p.layout.leafLoopScatter (fun cnt _ => tr'.cmts.cmt0 cnt) (fun _ => Block.zero _)).1 i inside
    exact one.symm.trans (agree.trans other)

theorem path : sig.path = sig'.path := by
  have salt := twins.message.2.2
  have here := twins.here.path
  have there := twins.there.path
  rw [twins.array] at here
  rw [twins.array', ← salt] at there
  obtain ⟨cnt, bound, zero⟩ := c.someZero (by rw [twins.fixed]; exact p.weightBelow)
  have hidden : SeedTree.published p.layout c.array 0 = false := SeedTree.rootHidden p.layout bound (by rw [zero]; decide)
  have length : ∀ seed : Block p.seedLength, (seed.toList ++ sig.salt.toList).length < 2 ^ 32 := by
    intro seed
    rw [List.length_append, Vector.length_toList, Vector.length_toList]
    exact twins.short.node
  have leaves : ∀ n < p.layout.numNodes, p.layout.tree.inner n = false → SeedTree.published p.layout c.array n = true →
      tr.seed n = tr'.seed n := by
    intro n inside leaf own
    obtain ⟨i, small, rfl⟩ := p.layout.leafNodeSurjective inside leaf
    rw [SeedTree.publishedLeaf p.layout _ small, beq_iff_eq] at own
    have one : o.chall2 i = 1 := by rw [twins.array]; exact own
    have one' : o'.chall2 i = 1 := by rw [twins.array']; exact own
    have same := (twins.here.opened i small one).trans ((twins.commitments.2 i small).trans (twins.there.opened i small one').symm)
    have absorbed := apartHash twins.apart (.seed i small one) (.seed i small one') same
    rw [← salt] at absorbed
    have inputs := absorbedShort (length _) (length _) absorbed
    rw [← twins.seeds, ← twins.seeds']
    exact (blocksAppend inputs).1
  have agree := p.layout.tree.disclosedBinding (SeedTree.publishedMarked p.layout c.array) hidden here there leaves
    fun n inside isInner own same => by
      have blocks := halvesSame (congrArg Prod.fst same) (congrArg Prod.snd same)
      have calls := twins.apart _ _ (.node n inside (by rw [twins.array]; exact own) isInner)
        (.node n inside (by rw [twins.array']; exact own) isInner) rfl (by rw [← salt]; exact blocks)
      rw [← salt] at calls
      exact (blocksAppend (absorbedShort (length _) (length _) calls)).1
  refine storageSame agree ?_ ?_
  · have rest := twins.here.pathRest
    rw [twins.array] at rest
    exact rest
  · have rest := twins.there.pathRest
    rw [twins.array'] at rest
    exact rest

theorem round {i : Nat} (inside : i < p.t) (zero : c.array i = 0) :
    resp0At p sig (zerosBefore c.array i) = resp0At p sig' (zerosBefore c.array i) ∧
      resp1At p sig (zerosBefore c.array i) = resp1At p sig' (zerosBefore c.array i) := by
  have own : o.chall2 i = 0 := by rw [twins.array]; exact zero
  have own' : o'.chall2 i = 0 := by rw [twins.array']; exact zero
  have here := twins.here.responded i inside own
  have there := twins.there.responded i inside own'
  have kept := twins.here.kept i inside own
  have kept' := twins.there.kept i inside own'
  rw [twins.array] at here kept
  rw [twins.array'] at there kept'
  have same := (twins.here.answered i inside own).trans ((twins.proof.2 i inside zero).trans
    (twins.there.answered i inside own').symm)
  have absorbed := apartHash twins.apart (.answer i inside own) (.answer i inside own') same
  have length : ∀ (syn : FpVec (p.n - p.k)) (vGBar : Block p.denselyPackedFzRsdpGVecSize) (salt : Block p.saltLength),
      (cmt0Input p syn vGBar salt).length < 2 ^ 32 := by
    intro syn vGBar salt
    rw [cmt0Input, List.length_append, List.length_append, Vector.length_toList, Vector.length_toList, Vector.length_toList]
    exact twins.short.commitment
  have inputs := absorbedShort (length _ _ _) (length _ _ _) absorbed
  have parts := List.append_inj' inputs (by rw [Vector.length_toList, Vector.length_toList])
  have packed := (blocksAppend parts.1).2
  refine ⟨?_, kept.trans ((twins.commitments.2 i inside).trans kept'.symm)⟩
  rw [here, there, twins.responses.1 i inside, packed]

theorem signature : sig = sig' := by
  have responses : ∀ r < p.t - p.w, resp0At p sig r = resp0At p sig' r ∧ resp1At p sig r = resp1At p sig' r := by
    intro r below
    obtain ⟨i, inside, zero, rank⟩ := zerosBeforeHits c twins.fixed below
    rw [← rank]
    exact twins.round inside zero
  have read : ∀ {α : Type} (v : Vector α (p.t - p.w)) (d : α) {r : Nat} (below : r < p.t - p.w), v.getD r d = v[r] := by
    intro α v d r below
    unfold Vector.getD
    rw [Array.getD_eq_getD_getElem?, Vector.getElem?_toArray, Vector.getElem?_eq_getElem below]
    rfl
  have resp0 : sig.resp0 = sig'.resp0 := Vector.ext fun r below => by
    have here := (responses r below).1
    rwa [resp0At, resp0At, read _ _ below, read _ _ below] at here
  have resp1 : sig.resp1 = sig'.resp1 := Vector.ext fun r below => by
    have here := (responses r below).2
    rwa [resp1At, resp1At, read _ _ below, read _ _ below] at here
  obtain ⟨-, digestCmt, salt⟩ := twins.message
  have path := twins.path
  have proof := twins.proof.1
  have digest := twins.digest
  cases sig
  cases sig'
  subst salt digestCmt digest path proof resp0 resp1
  rfl

end Twins

def Build.Accepts (p : Parameters) (shake : Shake) (pk : PublicKey p) (m : Bytes) (sig : CrossSig p) : Build → Prop
  | .portable => ∃ tree y, Portable.crossVerify p shake pk m sig tree y = true
  | .sve2 length => ∃ tree unwritten, Sve2.crossVerify p shake length pk m sig tree unwritten = true

theorem acceptsIff {pk : PublicKey p} {m : Bytes} {sig : CrossSig p} {build : Build} :
    build.Accepts p shake pk m sig ↔ Acceptable p shake pk m sig := by
  cases build with
  | portable =>
    constructor
    · rintro ⟨tree, y, accepted⟩
      exact (portableAccepts shake tree y).mp accepted
    · exact fun acceptable => ⟨fun _ => Block.zero _, fun _ => Vector.replicate _ 0, (portableAccepts shake _ _).mpr acceptable⟩
  | sve2 length =>
    have agree := crossVerifyAgrees p shake length pk m sig
    constructor
    · rintro ⟨tree, unwritten, accepted⟩
      exact (portableAccepts shake tree _).mp ((agree tree tree (fun _ => Vector.replicate _ 0) unwritten).mp accepted)
    · intro acceptable
      refine ⟨fun _ => Block.zero _, ⟨fun _ => Vector.replicate _ 0, fun _ => Vector.replicate _ 0⟩, ?_⟩
      exact (agree (fun _ => Block.zero _) _ (fun _ => Vector.replicate _ 0) _).mpr ((portableAccepts shake _ _).mpr acceptable)

theorem acceptableBinds (category : Category) (shake : Shake) :
    let p := category.parameters
    ∀ {pk pk' : PublicKey p} {m m' : Bytes} {sig sig' : CrossSig p}, Acceptable p shake pk m sig →
      Acceptable p shake pk' m' sig' → sig.digestChall2 = sig'.digestChall2 →
        (shakeUpdate m = shakeUpdate m' ∧ sig = sig') ∨
          ∃ tr tr', Explains p shake pk sig tr (tr.opening p shake pk m sig) ∧
            Explains p shake pk' sig' tr' (tr'.opening p shake pk' m' sig') ∧
            Clash shake (Calls shake m sig tr (tr.opening p shake pk m sig))
              (Calls shake m' sig' tr' (tr'.opening p shake pk' m' sig')) := by
  rintro p pk pk' m m' sig sig' ⟨tr, here⟩ ⟨tr', there⟩ digest
  rcases apartOrClash shake (Calls shake m sig tr (tr.opening p shake pk m sig))
    (Calls shake m' sig' tr' (tr'.opening p shake pk' m' sig')) with apart | clash
  · left
    have array := challengeOfArray p shake sig.digestChall2
    have twins : Twins shake (challengeOf p shake sig.digestChall2) pk pk' m m' sig sig' tr tr'
        (tr.opening p shake pk m sig) (tr'.opening p shake pk' m' sig') :=
      ⟨categoryShort category, challengeOfWeight p shake sig.digestChall2, here, there, array.symm,
        by rw [array, digest]; rfl, rfl, rfl, fun _ => rfl, fun _ => rfl, apart, digest⟩
    exact ⟨twins.message.1, twins.signature⟩
  · exact .inr ⟨tr, tr', here, there, clash⟩

theorem challengeDigestBinds (category : Category) (shake : Shake) :
    let p := category.parameters
    ∀ (build build' : Build) (pk pk' : PublicKey p) (m m' : Bytes) (sig sig' : CrossSig p),
      build.Accepts p shake pk m sig → build'.Accepts p shake pk' m' sig' → sig.digestChall2 = sig'.digestChall2 →
        (shakeUpdate m = shakeUpdate m' ∧ sig = sig') ∨
          ∃ tr tr', Explains p shake pk sig tr (tr.opening p shake pk m sig) ∧
            Explains p shake pk' sig' tr' (tr'.opening p shake pk' m' sig') ∧
            Clash shake (Calls shake m sig tr (tr.opening p shake pk m sig))
              (Calls shake m' sig' tr' (tr'.opening p shake pk' m' sig')) := by
  intro p build build' pk pk' m m' sig sig' accepts accepts' digest
  exact acceptableBinds category shake (acceptsIff.mp accepts) (acceptsIff.mp accepts') digest

theorem honestAccepts (p : Parameters) (shake : Shake) (seedSk : Block p.keypairSeedLength) (m : Bytes)
    (rootSeed : Block p.seedLength) (salt : Block p.saltLength) (merkleTree0 : Merkle.Digests p) :
    let keys := crossKeygen p shake .portable seedSk
    Build.portable.Accepts p shake keys.2 m (crossSign p shake .portable keys.1 m rootSeed salt merkleTree0) := by
  intro keys
  obtain ⟨s, published, key⟩ := keygenHonest p shake .portable seedSk
  refine ⟨merkleTree0, fun _ => Vector.replicate _ 0, ?_⟩
  change Portable.crossVerify p shake (crossKeygen p shake .portable seedSk).2 m _ _ _ = true
  rw [published]
  exact portableComplete p shake key m rootSeed salt merkleTree0 merkleTree0 _

theorem challengeDigestBindsConstant :
    let p := category1
    let shake : Shake := fun _ _ n => Block.zero n
    let keys := crossKeygen p shake .portable (Block.zero _)
    let sig := fun m => crossSign p shake .portable keys.1 m (Block.zero _) (Block.zero _) (fun _ => Block.zero _)
    ∃ tr tr', Explains p shake keys.2 (sig [0]) tr (tr.opening p shake keys.2 [0] (sig [0])) ∧
      Explains p shake keys.2 (sig [1]) tr' (tr'.opening p shake keys.2 [1] (sig [1])) ∧
      Clash shake (Calls shake [0] (sig [0]) tr (tr.opening p shake keys.2 [0] (sig [0])))
        (Calls shake [1] (sig [1]) tr' (tr'.opening p shake keys.2 [1] (sig [1]))) := by
  intro p shake keys sig
  have digest : ∀ m, (sig m).digestChall2 = Block.zero _ := fun _ => rfl
  refine (challengeDigestBinds .one shake .portable .portable keys.2 keys.2 [0] [1] (sig [0]) (sig [1])
    (honestAccepts p shake _ _ _ _ _) (honestAccepts p shake _ _ _ _ _) ((digest [0]).trans (digest [1]).symm)).resolve_left
    fun same => absurd same.1 (by decide)

end Armor.Cross
