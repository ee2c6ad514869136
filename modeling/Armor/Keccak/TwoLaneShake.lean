import Armor.Keccak.TwoLaneFacts

/-! The two-lane Keccak against SHAKE: the calls on which both outputs are the SHAKE of their
stream for every permutation are exactly those that stay off the unrolled full-rate path. -/
namespace Armor.Keccak.TwoLane

variable {kind : ShakeKind} {f : Lanes → Lanes}

theorem bytewiseByte (s : WordMem) (i : Nat) {j : Nat} (h : j < 200) : bytewise.byte (lanesOf s i) j = byteAt s i j :=
  lanesByte s i h

theorem extractBothByte (s : WordMem) {i : Nat} (h : i < 2) (out : Mem × Mem) (cur offset n a : Nat) :
    choose (extractBytes s 0 out.1 cur offset n) (extractBytes s 1 out.2 cur offset n) i a =
      if cur ≤ a ∧ a < cur + n then byteAt s i (offset + (a - cur)) else choose out.1 out.2 i a := by
  rcases eitherInstance h with rfl | rfl <;> exact extractBytesByte _ _ _ _ _ _ _

theorem squeezeBlocksByte {i : Nat} (h : i < 2) (remaining : Nat) (state : Keccakx2State) (out : Mem × Mem)
    (cur a : Nat) :
    choose (squeezeBlocks kind f state out cur remaining).2.1 (squeezeBlocks kind f state out cur remaining).2.2 i a =
      if cur ≤ a ∧ a < cur + remaining then
        Sponge.outByte bytewise f kind.rate (f (lanesOf state.s i)) (a - cur)
      else choose out.1 out.2 i a := by
  induction remaining using Nat.strongRecOn generalizing state out cur with
  | ind remaining ih =>
    have bounds := kind.rateBounds
    rw [squeezeBlocks]
    by_cases some_ : 0 < remaining
    · rw [if_pos some_]
      dsimp only
      generalize width : (if remaining < kind.rate then remaining else kind.rate) = chunk
      have size : 0 < chunk ∧ chunk ≤ remaining ∧ chunk ≤ kind.rate ∧ (chunk = remaining ∨ chunk = kind.rate) := by
        split at width <;> omega
      rw [ih (remaining - chunk) (by omega)]
      dsimp only
      by_cases later : cur + chunk ≤ a ∧ a < cur + chunk + (remaining - chunk)
      · have full : chunk = kind.rate := by omega
        have quotient : (a - cur) / kind.rate = (a - (cur + kind.rate)) / kind.rate + 1 := by
          rw [show a - cur = a - (cur + kind.rate) + kind.rate by omega, Nat.add_div_right _ (by omega)]
        have remainder : (a - cur) % kind.rate = (a - (cur + kind.rate)) % kind.rate := by
          rw [show a - cur = a - (cur + kind.rate) + kind.rate by omega, Nat.add_mod_right]
        rw [if_pos later, if_pos (by omega), permuteLanes f _ h, full, Sponge.outByte, Sponge.outByte, quotient,
          remainder, Function.iterate_succ_apply]
      · rw [if_neg later, extractBothByte _ h]
        by_cases here : cur ≤ a ∧ a < cur + chunk
        · rw [if_pos here, if_pos (by omega), Nat.zero_add, ← lanesByte _ _ (by omega), permuteLanes f _ h,
            Sponge.outByte, Nat.div_eq_of_lt (by omega), Nat.mod_eq_of_lt (by omega)]
          rfl
        · rw [if_neg here, if_neg (by omega)]
    · rw [if_neg some_, if_neg (by omega)]

theorem extractNarrowByte (s : WordMem) {i : Nat} (h : i < 2) (out : Mem × Mem) (cur n a : Nat) :
    let lanes := Loop.upTo n (fun l out =>
      (storeWord out.1 (cur + 8 * l) (s (2 * l)), storeWord out.2 (cur + 8 * l) (s (2 * l + 1)))) out
    choose lanes.1 lanes.2 i a =
      if cur ≤ a ∧ a < cur + 8 * n then byteAt s i (a - cur) else choose out.1 out.2 i a := by
  induction n with
  | zero =>
    rw [if_neg (by omega)]
    rfl
  | succ n ih =>
    dsimp only at ih ⊢
    rw [Loop.upToSucc]
    by_cases here : cur + 8 * n ≤ a ∧ a < cur + 8 * n + 8
    · rw [if_pos (show cur ≤ a ∧ a < cur + 8 * (n + 1) by omega), byteAt]
      rw [show (a - cur) / 8 = n by omega, show (a - cur) % 8 = 0 + (a - (cur + 8 * n)) by omega]
      rcases eitherInstance h with rfl | rfl <;> exact if_pos here
    · have past : choose (storeWord (Loop.upTo n (fun l out => (storeWord out.1 (cur + 8 * l) (s (2 * l)),
          storeWord out.2 (cur + 8 * l) (s (2 * l + 1)))) out).1 (cur + 8 * n) (s (2 * n)))
          (storeWord (Loop.upTo n (fun l out => (storeWord out.1 (cur + 8 * l) (s (2 * l)),
          storeWord out.2 (cur + 8 * l) (s (2 * l + 1)))) out).2 (cur + 8 * n) (s (2 * n + 1))) i a =
          choose (Loop.upTo n (fun l out => (storeWord out.1 (cur + 8 * l) (s (2 * l)),
            storeWord out.2 (cur + 8 * l) (s (2 * l + 1)))) out).1 (Loop.upTo n (fun l out =>
            (storeWord out.1 (cur + 8 * l) (s (2 * l)), storeWord out.2 (cur + 8 * l) (s (2 * l + 1)))) out).2 i a := by
        rcases eitherInstance h with rfl | rfl <;> exact if_neg here
      rw [past, ih]
      by_cases inside : cur ≤ a ∧ a < cur + 8 * n
      · rw [if_pos inside, if_pos (by omega)]
      · rw [if_neg inside, if_neg (by omega)]

theorem squeezeLanesByte {i : Nat} (h : i < 2) {n : Nat} (narrow : n < maxLanes kind) (state : Keccakx2State)
    (out : Mem × Mem) (a : Nat) :
    choose (squeezeLanes kind f state out 0 n).2.1 (squeezeLanes kind f state out 0 n).2.2 i a =
      if a < 8 * n then Sponge.outByte bytewise f kind.rate (f (lanesOf state.s i)) a
      else choose out.1 out.2 i a := by
  have bounds := kind.rateBounds
  have width := maxLanesRate kind
  rw [squeezeLanes]
  by_cases some_ : 0 < n
  · simp only [if_pos some_, if_neg (show ¬ n ≥ maxLanes kind by omega)]
    rw [squeezeLanes, Nat.sub_self, if_neg (Nat.lt_irrefl 0), extractLanesAll, if_neg (Nat.ne_of_lt narrow)]
    dsimp only
    rw [extractNarrowByte _ h]
    simp only [Nat.zero_le, true_and, Nat.zero_add, Nat.sub_zero]
    by_cases inside : a < 8 * n
    · rw [if_pos inside, if_pos inside, ← lanesByte _ _ (by omega), permuteLanes f _ h, Sponge.outByte,
        Nat.div_eq_of_lt (by omega), Nat.mod_eq_of_lt (by omega)]
      rfl
    · rw [if_neg inside, if_neg inside]
  · rw [if_neg some_, if_neg (by omega)]

theorem incSqueezeByte {i : Nat} (h : i < 2) {n : Nat} {state : Keccakx2State} (start : state.offset = 0)
    (narrow : ¬ Wide kind 0 n) (out : Mem × Mem) (a : Nat) :
    choose (incSqueeze kind f state out n).2.1 (incSqueeze kind f state out n).2.2 i a =
      if a < n then Sponge.outByte bytewise f kind.rate (f (lanesOf state.s i)) a
      else choose out.1 out.2 i a := by
  have bounds := kind.rateBounds
  rw [incSqueeze]
  by_cases aligned : state.offset = 0 ∧ n % 8 = 0
  · have width := maxLanesRate kind
    have fewer : ¬ kind.rate ≤ n := fun wide => narrow ⟨rfl, aligned.2, wide⟩
    rw [if_pos aligned, squeezeLanesByte h (by omega), show 8 * (n / 8) = n by omega]
  · rw [if_neg aligned]
    dsimp only
    rw [start, if_neg (Nat.not_lt_zero n), squeezeBlocksByte h]
    dsimp only
    rw [extractBothByte _ h, if_neg (show ¬ (0 ≤ a ∧ a < 0 + 0) by omega)]
    simp only [Nat.zero_le, true_and, Nat.zero_add, Nat.sub_zero]

structure Call where
  in0 : Mem
  in1 : Mem
  inLen : Nat

def absorbAll (kind : ShakeKind) (f : Lanes → Lanes) (calls : List Call) (state : Keccakx2State) : Keccakx2State :=
  calls.foldl (fun state c => incAbsorb kind f state c.in0 c.in1 c.inLen) state

def stream (calls : List Call) (instanceIndex : Nat) : Bytes :=
  calls.flatMap fun c => ((choose c.in0 c.in1 instanceIndex).block 0 c.inLen).toList

def twoLane (kind : ShakeKind) (f : Lanes → Lanes) (calls : List Call) (n : Nat) (out : Mem × Mem) : Mem × Mem :=
  (incSqueeze kind f (incFinalize kind (absorbAll kind f calls incInit)) out n).2

def SqueezesShake (kind : ShakeKind) (f : Lanes → Lanes) (calls : List Call) (n : Nat) : Prop :=
  ∀ out, ∀ i < 2, let written := choose (twoLane kind f calls n out).1 (twoLane kind f calls n out).2 i
    (written.block 0 n).toList = Sponge.shake bytewise f kind.rate (stream calls i) n ∧
      ∀ a, n ≤ a → written a = choose out.1 out.2 i a

/-- No call in a sequence of lengths starts a block with whole words that fill it. -/
def NarrowFrom (kind : ShakeKind) : Nat → List Nat → Prop
  | _, [] => True
  | done, n :: rest => ¬ Wide kind (done % kind.rate) n ∧ NarrowFrom kind (done + n) rest

def Narrow (kind : ShakeKind) (lengths : List Nat) (n : Nat) : Prop :=
  NarrowFrom kind 0 lengths ∧ ¬ Wide kind 0 n

def Feeds (streams : Nat → Mem) : Nat → List Call → Prop
  | _, [] => True
  | done, c :: rest => (∀ i < 2, ∀ k < c.inLen, choose c.in0 c.in1 i k = streams i (done + k)) ∧
      Feeds streams (done + c.inLen) rest

def total (calls : List Call) : Nat := (calls.map Call.inLen).sum

theorem absorbAllHolds {streams : Nat → Mem} {calls : List Call} {done : Nat} {state : Keccakx2State}
    (holds : Absorbed kind f streams done state) (feeds : Feeds streams done calls)
    (narrow : NarrowFrom kind done (calls.map Call.inLen)) :
    Absorbed kind f streams (done + total calls) (absorbAll kind f calls state) := by
  induction calls generalizing done state with
  | nil => exact holds
  | cons c rest ih =>
    have next := ih (incAbsorbHolds holds feeds.1 narrow.1) feeds.2 narrow.2
    rw [Nat.add_assoc] at next
    rw [total, List.map_cons, List.sum_cons]
    exact next

theorem streamFeeds (before : Nat → Bytes) (done : Nat) (lengths : ∀ i < 2, (before i).length = done)
    (calls : List Call) : Feeds (fun i => Sponge.streamOf (before i ++ stream calls i)) done calls := by
  induction calls generalizing before done with
  | nil => trivial
  | cons c rest ih =>
    have split : ∀ i, before i ++ stream (c :: rest) i =
        before i ++ ((choose c.in0 c.in1 i).block 0 c.inLen).toList ++ stream rest i := fun i => by
      rw [List.append_assoc]
      rfl
    simp only [split]
    refine ⟨fun i small k inside => ?_, ?_⟩
    · change _ = List.getD _ _ _
      rw [List.append_assoc, List.getD_append_right _ _ _ _ (by rw [lengths i small]; omega),
        lengths i small, Nat.add_sub_cancel_left,
        List.getD_append _ _ _ _ (by rwa [Vector.length_toList]), List.getD_eq_getElem _ _ (by rwa [Vector.length_toList]),
        Vector.getElem_toList, Mem.blockAt inside, Nat.zero_add]
    · refine ih (fun i => before i ++ ((choose c.in0 c.in1 i).block 0 c.inLen).toList) (done + c.inLen) fun i small => ?_
      rw [List.length_append, lengths i small, Vector.length_toList]

theorem streamLength (calls : List Call) (i : Nat) : (stream calls i).length = total calls := by
  induction calls with
  | nil => rfl
  | cons c rest ih =>
    rw [stream, List.flatMap_cons, List.length_append, Vector.length_toList, total, List.map_cons, List.sum_cons]
    rw [stream, total] at ih
    rw [ih]

theorem absorbedStream {calls : List Call} (narrow : NarrowFrom kind 0 (calls.map Call.inLen)) {i : Nat} (h : i < 2) :
    f (lanesOf (incFinalize kind (absorbAll kind f calls incInit)).s i) = Sponge.blocks bytewise f kind.rate
      (Sponge.streamOf (Sponge.pad kind.rate (stream calls i)))
      ((Sponge.pad kind.rate (stream calls i)).length / kind.rate) := by
  have feeds := streamFeeds (fun _ => []) 0 (fun _ _ => rfl) calls
  simp only [List.nil_append] at feeds
  have absorbed := absorbAllHolds (absorbedInit _) feeds narrow (f := f)
  rw [Nat.zero_add] at absorbed
  exact finalizedLanes (fun i _ => streamLength calls i) absorbed h

theorem finalizeOffset (kind : ShakeKind) (state : Keccakx2State) : (incFinalize kind state).offset = 0 := by
  rw [incFinalize]
  split <;> rfl

theorem narrowSqueezes {calls : List Call} {n : Nat} (narrow : Narrow kind (calls.map Call.inLen) n) :
    SqueezesShake kind f calls n := by
  intro out i h
  have bytes := incSqueezeByte (f := f) h (finalizeOffset kind (absorbAll kind f calls incInit)) narrow.2 out
  rw [absorbedStream (f := f) narrow.1 h] at bytes
  refine ⟨?_, fun a past => ?_⟩
  · refine List.ext_getElem ?_ fun k left right => ?_
    · rw [Vector.length_toList, Sponge.shake, List.length_map, List.length_range]
    · have inside : k < n := by rwa [Vector.length_toList] at left
      rw [Vector.getElem_toList, Mem.blockAt inside, Nat.zero_add]
      simp only [Sponge.shake, List.getElem_map, List.getElem_range]
      refine (bytes k).trans ?_
      rw [if_pos inside]
  · refine (bytes a).trans ?_
    rw [if_neg (by omega)]

section Idle

def quiet : Mem := fun _ => 0

theorem wordMemExt {s s' : WordMem} (same : ∀ i < 2, ∀ j, byteAt s i j = byteAt s' i j) : s = s' := by
  funext w
  refine Words.wordExt fun k small => ?_
  have here := same (w % 2) (by omega) (8 * (w / 2) + k)
  have word : 2 * ((8 * (w / 2) + k) / 8) + w % 2 = w := by omega
  have byte : (8 * (w / 2) + k) % 8 = k := by omega
  simpa only [byteAt, word, byte] using here

theorem permuteId (s : WordMem) : statePermutex2 id s = s := by
  funext w
  rw [statePermutex2]
  split
  · have word : 2 * (w / 2) + w % 2 = w := by omega
    rw [id_eq, lanesOf, Vector.getElem_ofFn]
    simp only [word]
  · rfl

theorem xorWordZero (s : WordMem) (w : Nat) : xorWord s w 0 = s := by
  rw [xorWord, UInt64.xor_zero, Function.update_eq_self]

theorem loadWordZero {data : Mem} {cur : Nat} (zeros : ∀ a, cur ≤ a → data a = 0) : loadWord data cur = 0 := by
  refine Words.wordExt fun k small => ?_
  rw [loadWord, Words.byteOfBytes _ small, zeros _ (by omega), Words.byteOfZero]

theorem addBytesZero (s : WordMem) {i : Nat} (h : i < 2) (cur offset n : Nat) :
    addBytes s i quiet cur offset n = s := by
  refine wordMemExt fun i' h' j => ?_
  rw [addBytesByte s h' h]
  split
  · exact UInt8.xor_zero
  · rfl

theorem upToIdle {σ : Type} {n : Nat} {body : Nat → σ → σ} {s : σ} (idle : ∀ i < n, body i s = s) :
    Loop.upTo n body s = s :=
  Loop.upToInvariant (fun _ t => t = s) rfl fun i below t same => by rw [same, idle i below]

theorem addPairedZero {lanes0 lanes1 : WordMem} {i : Nat} (first : lanes0 i = 0 ∧ lanes0 (i + 1) = 0)
    (second : lanes1 i = 0 ∧ lanes1 (i + 1) = 0) (s : WordMem) : addPaired lanes0 lanes1 i s = s := by
  simp only [addPaired, svld1, svst1, sveor, first.1, first.2, second.1, second.2, UInt64.xor_zero,
    Function.update_eq_self]

theorem addLanesAllZero (s : WordMem) {in0 in1 : Mem} {cur : Nat} (zero0 : ∀ a, cur ≤ a → in0 a = 0)
    (zero1 : ∀ a, cur ≤ a → in1 a = 0) (n : Nat) : addLanesAll kind s in0 in1 cur n = s := by
  have lanes0 : ∀ i, loadWord in0 (cur + 8 * i) = 0 := fun i => loadWordZero fun a past => zero0 a (by omega)
  have lanes1 : ∀ i, loadWord in1 (cur + 8 * i) = 0 := fun i => loadWordZero fun a past => zero1 a (by omega)
  rw [addLanesAll]
  split
  · simp only [lanes0, lanes1, xorWordZero]
    exact upToIdle fun i _ => addPairedZero ⟨rfl, rfl⟩ ⟨rfl, rfl⟩ s
  · simp only [lanes0, lanes1, xorWordZero]
    exact upToIdle fun i _ => rfl

theorem absorbLanesZero (in0 in1 : Mem) (lanes cur : Nat) (zero0 : ∀ a, cur ≤ a → in0 a = 0)
    (zero1 : ∀ a, cur ≤ a → in1 a = 0) (s : WordMem) :
    absorbLanes kind id in0 in1 ⟨s, 0⟩ cur lanes = ⟨s, 8 * lanes % kind.rate⟩ := by
  have positive := maxLanesPositive kind
  have width := maxLanesRate kind
  induction lanes using Nat.strongRecOn generalizing cur with
  | ind lanes ih =>
    rw [absorbLanes]
    by_cases some_ : 0 < lanes
    · rw [if_pos some_]
      dsimp only
      rw [addLanesAllZero s zero0 zero1]
      by_cases full : lanes ≥ maxLanes kind
      · rw [if_pos full, if_pos rfl, permuteId, ih (lanes - maxLanes kind) (by omega) _
          (fun a past => zero0 a (by omega)) fun a past => zero1 a (by omega)]
        have wrap : 8 * lanes = 8 * (lanes - maxLanes kind) + kind.rate := by omega
        rw [wrap, Nat.add_mod_right]
      · rw [if_neg full, if_neg (by omega), Nat.sub_self, absorbLanes, if_neg (Nat.lt_irrefl 0),
          Nat.mod_eq_of_lt (by omega), Nat.mul_comm]
    · rw [if_neg some_, show 8 * lanes = 0 by omega, Nat.zero_mod]

theorem absorbBlocksZero (remaining cur : Nat) {state : Keccakx2State} (small : state.offset < kind.rate) :
    let after := absorbBlocks kind id quiet quiet state cur remaining
    after.1.s = state.s ∧ after.1.offset + after.2.2 < kind.rate ∧
      (after.1.offset + after.2.2) % kind.rate = (state.offset + remaining) % kind.rate := by
  induction remaining using Nat.strongRecOn generalizing cur state with
  | ind remaining ih =>
    have bounds := kind.rateBounds
    rw [absorbBlocks]
    by_cases whole : remaining + state.offset ≥ kind.rate
    · rw [if_pos whole]
      dsimp only
      rw [addBytesZero _ (by decide), addBytesZero _ (by decide), permuteId]
      have later := @ih (remaining - (kind.rate - state.offset)) (by omega) (cur + (kind.rate - state.offset))
        ⟨state.s, 0⟩ (show 0 < kind.rate by omega)
      refine ⟨later.1, later.2.1, later.2.2.trans ?_⟩
      rw [show state.offset + remaining = 0 + (remaining - (kind.rate - state.offset)) + kind.rate by omega,
        Nat.add_mod_right]
    · rw [if_neg whole]
      exact ⟨rfl, show state.offset + remaining < kind.rate by omega, rfl⟩

theorem incAbsorbZero {state : Keccakx2State} (small : state.offset < kind.rate) (n : Nat) :
    incAbsorb kind id state quiet quiet n = ⟨state.s, (state.offset + n) % kind.rate⟩ := by
  rw [incAbsorb]
  by_cases aligned : state.offset = 0 ∧ n % 8 = 0
  · obtain ⟨s, offset⟩ := state
    dsimp only at aligned ⊢
    rw [if_pos aligned, aligned.1, absorbLanesZero quiet quiet (n / 8) 0 (fun _ _ => rfl) (fun _ _ => rfl),
      show 8 * (n / 8) = n by omega, Nat.zero_add]
  · rw [if_neg aligned]
    have after := absorbBlocksZero n 0 small
    generalize absorbBlocks kind id quiet quiet state 0 n = result at after ⊢
    obtain ⟨state', cur, remaining⟩ := result
    dsimp only at after ⊢
    obtain ⟨same, room, offset⟩ := after
    rw [Nat.mod_eq_of_lt room] at offset
    split
    · rw [addBytesZero _ (by decide), addBytesZero _ (by decide), same, offset]
    · rw [← offset, show state'.offset + remaining = state'.offset by omega, ← same]

def silent (n : Nat) : Call := ⟨quiet, quiet, n⟩

theorem absorbAllSilent (lengths : List Nat) {state : Keccakx2State} (small : state.offset < kind.rate) :
    absorbAll kind id (lengths.map silent) state = ⟨state.s, (state.offset + lengths.sum) % kind.rate⟩ := by
  have bounds := kind.rateBounds
  induction lengths generalizing state with
  | nil => rw [List.sum_nil, Nat.add_zero, Nat.mod_eq_of_lt small]; rfl
  | cons n rest ih =>
    rw [List.map_cons, absorbAll, List.foldl_cons, ← absorbAll, silent, incAbsorbZero small,
      ih (Nat.mod_lt _ (by omega)), List.sum_cons]
    dsimp only
    rw [Nat.mod_add_mod, Nat.add_assoc]

def mark : Mem := fun a => if a = 8 then 1 else 0

theorem markWords (i : Nat) : loadWord mark (0 + 8 * i) = if i = 1 then 1 else 0 := by
  refine Words.wordExt fun k small => ?_
  rw [loadWord, Words.byteOfBytes _ small, mark]
  by_cases here : i = 1
  · subst here
    rw [if_pos rfl]
    have bytes : ∀ k < 8, (if 0 + 8 * 1 + k = 8 then (1 : UInt8) else 0) = Words.byteOf 1 k := by decide
    exact bytes k small
  · rw [if_neg here, if_neg (by omega), Words.byteOfZero]

theorem addLanesAllMark (s : WordMem) : addLanesAll kind s mark quiet 0 (maxLanes kind) = xorWord s 1 1 := by
  have lanes1 : ∀ i, loadWord quiet (0 + 8 * i) = 0 := fun i => loadWordZero fun a past => rfl
  rw [addLanesAll, if_pos rfl]
  simp only [markWords, lanes1, xorWordZero, if_neg (show ¬ 20 = 1 by decide)]
  rw [show (10 : Nat) = 9 + 1 from rfl, Loop.upToFirst, upToIdle fun i _ => addPairedZero
    ⟨if_neg (by omega), if_neg (by omega)⟩ ⟨rfl, rfl⟩ _]
  simp only [addPaired, svld1, svst1, sveor, Nat.mul_zero, Nat.zero_add, UInt64.xor_zero, Function.update_eq_self,
    if_pos, if_neg (show ¬ 0 = 1 by decide)]
  rw [xorWord]
  funext w
  by_cases one : w = 1
  · subst one; simp
  · by_cases two : w = 2
    · subst two; simp
    · by_cases three : w = 3
      · subst three; simp
      · simp [one, two, three]

theorem incAbsorbMark {n : Nat} (wide : Wide kind 0 n) (s : WordMem) :
    incAbsorb kind id ⟨s, 0⟩ mark quiet n = ⟨xorWord s 1 1, n % kind.rate⟩ := by
  have positive := maxLanesPositive kind
  have width := maxLanesRate kind
  have bounds := kind.rateBounds
  obtain ⟨-, whole, filled⟩ := wide
  have full : n / 8 ≥ maxLanes kind := by omega
  rw [incAbsorb, if_pos ⟨rfl, whole⟩, absorbLanes, if_pos (by omega)]
  dsimp only
  rw [if_pos full, if_pos rfl, addLanesAllMark, permuteId, absorbLanesZero mark quiet _ _
    (fun a past => if_neg (by omega)) fun _ _ => rfl]
  rw [show n = 8 * (n / 8 - maxLanes kind) + kind.rate by omega, Nat.add_mod_right]
  congr 2
  omega

def marked (kind : ShakeKind) : Nat → List Nat → List Call
  | _, [] => []
  | done, n :: rest =>
    if Wide kind (done % kind.rate) n then ⟨mark, quiet, n⟩ :: rest.map silent
    else silent n :: marked kind (done + n) rest

theorem markedLengths (lengths : List Nat) (done : Nat) : (marked kind done lengths).map Call.inLen = lengths := by
  induction lengths generalizing done with
  | nil => rfl
  | cons n rest ih =>
    rw [marked]
    split
    · rw [List.map_cons, List.map_map]
      exact congrArg _ (List.map_id rest)
    · rw [List.map_cons, ih]
      rfl

theorem markedSecond (lengths : List Nat) (done : Nat) :
    stream (marked kind done lengths) 1 = stream (lengths.map silent) 1 := by
  induction lengths generalizing done with
  | nil => rfl
  | cons n rest ih =>
    rw [marked]
    split
    · rfl
    · simp only [stream, List.flatMap_cons, List.map_cons] at ih ⊢
      rw [ih]

theorem absorbAllMarked (lengths : List Nat) (done : Nat) (wide : ¬ NarrowFrom kind done lengths) (s : WordMem) :
    absorbAll kind id (marked kind done lengths) ⟨s, done % kind.rate⟩ =
      ⟨xorWord s 1 1, (done + lengths.sum) % kind.rate⟩ := by
  have bounds := kind.rateBounds
  have below : ∀ n, n % kind.rate < kind.rate := fun n => Nat.mod_lt _ (by omega)
  induction lengths generalizing done with
  | nil => exact absurd trivial wide
  | cons n rest ih =>
    rw [marked, List.sum_cons, ← Nat.add_assoc]
    by_cases here : Wide kind (done % kind.rate) n
    · have zero := here.1
      rw [if_pos here, absorbAll, List.foldl_cons, ← absorbAll, zero, incAbsorbMark (zero ▸ here),
        absorbAllSilent rest (below n)]
      dsimp only
      rw [Nat.mod_add_mod, ← Nat.mod_add_mod (done + n), ← Nat.mod_add_mod done, zero, Nat.zero_add, Nat.mod_add_mod]
    · rw [if_neg here, absorbAll, List.foldl_cons, ← absorbAll, silent, incAbsorbZero (below done)]
      dsimp only
      rw [Nat.mod_add_mod]
      exact ih (done + n) fun rest => wide ⟨here, rest⟩

end Idle

end Armor.Keccak.TwoLane
