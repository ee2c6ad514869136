import Armor.Keccak.TwoLane

/-! What each operation of the two-lane Keccak does to the bytes of one instance, and from it
that absorbing and squeezing outside the unrolled full-rate path is the sponge of each stream. -/
namespace Armor.Keccak.TwoLane

def byteAt (s : WordMem) (instanceIndex j : Nat) : UInt8 := Words.byteOf (s (2 * (j / 8) + instanceIndex)) (j % 8)

theorem lanesByte (s : WordMem) (i : Nat) {j : Nat} (h : j < 200) : stateByte (lanesOf s i) j = byteAt s i j := by
  rw [stateByteAt _ (by omega), lanesOf, Vector.getElem_ofFn]
  rfl

theorem xorWordByte (s : WordMem) {i i' : Nat} (l j : Nat) (v : UInt64) (h : i < 2) (h' : i' < 2) :
    byteAt (xorWord s (2 * l + i') v) i j =
      if i = i' ∧ j / 8 = l then byteAt s i j ^^^ Words.byteOf v (j % 8) else byteAt s i j := by
  unfold byteAt xorWord
  by_cases here : i = i' ∧ j / 8 = l
  · rw [if_pos here, here.1, here.2, Function.update_self, Words.byteOfXor]
  · rw [if_neg here, Function.update_of_ne (by omega)]

theorem xorEvenByte (s : WordMem) {i : Nat} (l j : Nat) (v : UInt64) (h : i < 2) :
    byteAt (xorWord s (2 * l) v) i j =
      if i = 0 ∧ j / 8 = l then byteAt s i j ^^^ Words.byteOf v (j % 8) else byteAt s i j :=
  xorWordByte s l j v h (show 0 < 2 by decide)

section Adding

variable (s : WordMem) {i i' : Nat} (h : i < 2) (h' : i' < 2) (data : Mem)

include h h'

theorem addWordsByte (cur l n j : Nat) :
    byteAt (Loop.upTo n (fun t s => xorWord s (2 * (l + t) + i') (loadWord data (cur + 8 * t))) s) i j =
      if i = i' ∧ 8 * l ≤ j ∧ j < 8 * l + 8 * n then byteAt s i j ^^^ data (cur + (j - 8 * l)) else byteAt s i j := by
  induction n with
  | zero =>
    rw [if_neg (by omega)]
    rfl
  | succ n ih =>
    rw [Loop.upToSucc, xorWordByte _ _ _ _ h h', ih]
    by_cases here : i = i' ∧ j / 8 = l + n
    · rw [if_pos here, if_neg (by omega), if_pos (by omega), loadWord, Words.byteOfBytes _ (by omega)]
      congr 2
      omega
    · rw [if_neg here]
      by_cases inside : i = i' ∧ 8 * l ≤ j ∧ j < 8 * l + 8 * n
      · rw [if_pos inside, if_pos (by omega)]
      · rw [if_neg inside, if_neg (by omega)]

theorem addWholeLanesByte (cur l n j : Nat) :
    byteAt (addWholeLanes s i' data cur l n) i j =
      if i = i' ∧ 8 * l ≤ j ∧ j < 8 * l + n then byteAt s i j ^^^ data (cur + (j - 8 * l)) else byteAt s i j := by
  unfold addWholeLanes
  have parts := Nat.div_add_mod n 8
  by_cases tail : 0 < n % 8
  · simp only [if_pos tail]
    rw [xorWordByte _ _ _ _ h h', addWordsByte s h h' data]
    by_cases here : i = i' ∧ j / 8 = l + n / 8
    · rw [if_pos here, if_neg (by omega), loadPart, Words.byteOfBytes _ (by omega)]
      by_cases inside : j % 8 < n % 8
      · rw [if_pos (by omega), if_pos (by omega)]
        congr 2
        omega
      · rw [if_neg (by omega), if_neg (by omega), UInt8.xor_zero]
    · rw [if_neg here]
      by_cases inside : i = i' ∧ 8 * l ≤ j ∧ j < 8 * l + 8 * (n / 8)
      · rw [if_pos inside, if_pos (by omega)]
      · rw [if_neg inside, if_neg (by omega)]
  · simp only [if_neg tail]
    rw [addWordsByte s h h' data, show 8 * (n / 8) = n by omega]

theorem addBytesByte (cur offset n j : Nat) :
    byteAt (addBytes s i' data cur offset n) i j =
      if i = i' ∧ offset ≤ j ∧ j < offset + n then byteAt s i j ^^^ data (cur + (j - offset)) else byteAt s i j := by
  have parts := Nat.div_add_mod offset 8
  unfold addBytes
  by_cases head : 0 < n ∧ offset % 8 ≠ 0
  · simp only [if_pos head]
    generalize width : (if 8 - offset % 8 > n then n else 8 - offset % 8) = bytesInLane
    have bounds : bytesInLane ≤ n ∧ bytesInLane ≤ 8 - offset % 8 ∧
        (bytesInLane = n ∨ bytesInLane = 8 - offset % 8) := by
      split at width <;> omega
    rw [addWholeLanesByte _ h h' data, xorWordByte _ _ _ _ h h']
    by_cases here : i = i' ∧ j / 8 = offset / 8
    · rw [if_neg (by omega), if_pos here, loadPart, Words.byteOfBytes _ (by omega)]
      by_cases inside : offset % 8 ≤ j % 8 ∧ j % 8 < offset % 8 + bytesInLane
      · rw [if_pos inside, if_pos (by omega)]
        congr 2
        omega
      · rw [if_neg inside, if_neg (by omega), UInt8.xor_zero]
    · rw [if_neg here]
      by_cases inside : i = i' ∧ 8 * (offset / 8 + 1) ≤ j ∧ j < 8 * (offset / 8 + 1) + (n - bytesInLane)
      · rw [if_pos inside, if_pos (by omega)]
        congr 2
        omega
      · rw [if_neg inside, if_neg (by omega)]
  · simp only [if_neg head]
    rw [addWholeLanesByte _ h h' data]
    by_cases aligned : offset % 8 = 0
    · rw [show 8 * (offset / 8) = offset by omega]
    · rw [if_neg (by omega), if_neg (by omega)]

theorem addBytesLanes (cur offset n : Nat) :
    lanesOf (addBytes s i' data cur offset n) i =
      if i = i' then Sponge.addBytes bytewise (lanesOf s i) offset (fun k => data (cur + k)) n else lanesOf s i := by
  refine bytewise.byteExt _ _ fun j below => ?_
  change stateByte _ j = stateByte _ j
  rw [lanesByte _ _ below, addBytesByte s h h' data]
  by_cases same : i = i'
  · rw [if_pos same]
    have added := Sponge.byteAddBytes (m := bytewise) (lanesOf s i) offset n (fun k => data (cur + k)) below
    change stateByte _ j = if _ then stateByte _ j ^^^ _ else stateByte _ j at added
    rw [added, lanesByte _ _ below]
    simp only [same, true_and]
  · rw [if_neg same, if_neg (by omega), lanesByte _ _ below]

end Adding

def choose {α : Type} (zero one : α) (instanceIndex : Nat) : α := if instanceIndex = 0 then zero else one

theorem eitherInstance {i : Nat} (h : i < 2) : i = 0 ∨ i = 1 := by omega

theorem addBothLanes (s : WordMem) {i : Nat} (h : i < 2) (in0 in1 : Mem) (cur offset n : Nat) :
    lanesOf (addBytes (addBytes s 0 in0 cur offset n) 1 in1 cur offset n) i =
      Sponge.addBytes bytewise (lanesOf s i) offset (fun k => choose in0 in1 i (cur + k)) n := by
  rw [addBytesLanes _ h (by decide), addBytesLanes _ h (by decide)]
  rcases eitherInstance h with rfl | rfl <;> rfl

theorem permuteLanes (f : Lanes → Lanes) (s : WordMem) {i : Nat} (h : i < 2) :
    lanesOf (statePermutex2 f s) i = f (lanesOf s i) := by
  refine Vector.ext fun l below => ?_
  have word : (2 * l + i) / 2 = l := by omega
  have parity : (2 * l + i) % 2 = i := by omega
  rw [lanesOf, Vector.getElem_ofFn, statePermutex2, dif_pos (by omega)]
  simp only [word, parity]

section Extracting

variable (s : WordMem) (i : Nat) (out : Mem)

theorem extractWordsByte (cur l n a : Nat) :
    Loop.upTo n (fun t out => storeWord out (cur + 8 * t) (s (2 * (l + t) + i))) out a =
      if cur ≤ a ∧ a < cur + 8 * n then byteAt s i (8 * l + (a - cur)) else out a := by
  induction n with
  | zero =>
    rw [if_neg (by omega)]
    rfl
  | succ n ih =>
    rw [Loop.upToSucc, storeWord, storePart]
    by_cases here : cur + 8 * n ≤ a ∧ a < cur + 8 * n + 8
    · rw [if_pos here, if_pos (by omega), byteAt]
      congr 2 <;> omega
    · rw [if_neg here, ih]
      by_cases inside : cur ≤ a ∧ a < cur + 8 * n
      · rw [if_pos inside, if_pos (by omega)]
      · rw [if_neg inside, if_neg (by omega)]

theorem extractWholeLanesByte (cur l n a : Nat) :
    extractWholeLanes s i out cur l n a =
      if cur ≤ a ∧ a < cur + n then byteAt s i (8 * l + (a - cur)) else out a := by
  have parts := Nat.div_add_mod n 8
  unfold extractWholeLanes
  by_cases tail : 0 < n % 8
  · simp only [if_pos tail]
    rw [storePart]
    by_cases here : cur + 8 * (n / 8) ≤ a ∧ a < cur + 8 * (n / 8) + n % 8
    · rw [if_pos here, if_pos (by omega), byteAt]
      congr 2 <;> omega
    · rw [if_neg here, extractWordsByte]
      by_cases inside : cur ≤ a ∧ a < cur + 8 * (n / 8)
      · rw [if_pos inside, if_pos (by omega)]
      · rw [if_neg inside, if_neg (by omega)]
  · simp only [if_neg tail]
    rw [extractWordsByte, show 8 * (n / 8) = n by omega]

theorem extractBytesByte (cur offset n a : Nat) :
    extractBytes s i out cur offset n a =
      if cur ≤ a ∧ a < cur + n then byteAt s i (offset + (a - cur)) else out a := by
  have parts := Nat.div_add_mod offset 8
  unfold extractBytes
  by_cases head : 0 < n ∧ offset % 8 ≠ 0
  · simp only [if_pos head]
    generalize width : (if 8 - offset % 8 > n then n else 8 - offset % 8) = bytesInLane
    have bounds : bytesInLane ≤ n ∧ bytesInLane ≤ 8 - offset % 8 ∧
        (bytesInLane = n ∨ bytesInLane = 8 - offset % 8) := by
      split at width <;> omega
    rw [extractWholeLanesByte, storePart]
    by_cases later : cur + bytesInLane ≤ a ∧ a < cur + bytesInLane + (n - bytesInLane)
    · rw [if_pos later, if_pos (by omega), byteAt, byteAt]
      congr 2 <;> omega
    · rw [if_neg later]
      by_cases here : cur ≤ a ∧ a < cur + bytesInLane
      · rw [if_pos here, if_pos (by omega), byteAt]
        congr 2 <;> omega
      · rw [if_neg here, if_neg (by omega)]
  · simp only [if_neg head]
    rw [extractWholeLanesByte]
    by_cases some_ : cur ≤ a ∧ a < cur + n
    · rw [if_pos some_, if_pos some_, byteAt, byteAt]
      congr 2 <;> omega
    · rw [if_neg some_, if_neg some_]

end Extracting

variable {kind : ShakeKind} {f : Lanes → Lanes}

structure Absorbed (kind : ShakeKind) (f : Lanes → Lanes) (streams : Nat → Mem) (len : Nat)
    (state : Keccakx2State) : Prop where
  offset : state.offset = len % kind.rate
  lanes : ∀ i < 2, lanesOf state.s i = Sponge.taken bytewise f kind.rate (streams i) len

theorem absorbedInit (streams : Nat → Mem) : Absorbed kind f streams 0 incInit where
  offset := by rw [Nat.zero_mod]; rfl
  lanes i below := by
    rw [Sponge.takenZero]
    refine Vector.ext fun l inside => ?_
    rw [lanesOf, Vector.getElem_ofFn]
    exact (Vector.getElem_replicate inside).symm

theorem absorbedPart {streams : Nat → Mem} {len : Nat} {state : Keccakx2State}
    (holds : Absorbed kind f streams len state) {in0 in1 : Mem} (cur : Nat) {n : Nat}
    (data : ∀ i < 2, ∀ k < n, choose in0 in1 i (cur + k) = streams i (len + k))
    (room : len % kind.rate + n < kind.rate) :
    Absorbed kind f streams (len + n)
      ⟨addBytes (addBytes state.s 0 in0 cur state.offset n) 1 in1 cur state.offset n, state.offset + n⟩ where
  offset := by
    rw [holds.offset, ← Nat.mod_eq_of_lt room, Nat.mod_add_mod]
  lanes i below := by
    rw [addBothLanes _ below, holds.lanes i below, holds.offset, ← Sponge.takenPart (streams i) room]
    exact Sponge.addBytesCongr (data i below)

theorem absorbedBlock {streams : Nat → Mem} {len : Nat} {state : Keccakx2State}
    (holds : Absorbed kind f streams len state) {in0 in1 : Mem} (cur : Nat) {n : Nat}
    (data : ∀ i < 2, ∀ k < n, choose in0 in1 i (cur + k) = streams i (len + k))
    (fills : len % kind.rate + n = kind.rate) :
    Absorbed kind f streams (len + n) ⟨statePermutex2 f
      (addBytes (addBytes state.s 0 in0 cur state.offset n) 1 in1 cur state.offset n), 0⟩ := by
  have whole : (len + n) % kind.rate = 0 := by
    rw [← Nat.mod_add_mod, fills, Nat.mod_self]
  have positive : 0 < kind.rate := by
    have := kind.rateBounds
    omega
  refine ⟨whole.symm, fun i below => ?_⟩
  rw [permuteLanes f _ below, addBothLanes _ below, holds.lanes i below, holds.offset,
    ← Sponge.takenBlock (streams i) fills positive]
  exact congrArg f (Sponge.addBytesCongr (data i below))

theorem absorbBlocksHolds {streams : Nat → Mem} (in0 in1 : Mem) (remaining cur : Nat) {len : Nat}
    {state : Keccakx2State} (holds : Absorbed kind f streams len state)
    (data : ∀ i < 2, ∀ k < remaining, choose in0 in1 i (cur + k) = streams i (len + k)) :
    let after := absorbBlocks kind f in0 in1 state cur remaining
    after.2.2 ≤ remaining ∧ after.2.1 = cur + (remaining - after.2.2) ∧
      (len + (remaining - after.2.2)) % kind.rate + after.2.2 < kind.rate ∧
      Absorbed kind f streams (len + (remaining - after.2.2)) after.1 := by
  induction remaining using Nat.strongRecOn generalizing cur len state with
  | ind remaining ih =>
    have bounds := kind.rateBounds
    have below := Nat.mod_lt len (show 0 < kind.rate by omega)
    have offset := holds.offset
    rw [absorbBlocks]
    by_cases whole : remaining + state.offset ≥ kind.rate
    · rw [if_pos whole]
      have fills : len % kind.rate + (kind.rate - state.offset) = kind.rate := by omega
      have later := ih (remaining - (kind.rate - state.offset)) (by omega) (cur + (kind.rate - state.offset))
        (absorbedBlock holds cur (fun i small k inside => data i small k (by omega)) fills)
        (fun i small k inside => by
          rw [Nat.add_assoc, Nat.add_assoc]
          exact data i small _ (by omega))
      dsimp only at later ⊢
      generalize absorbBlocks kind f in0 in1
        ⟨statePermutex2 f (addBytes (addBytes state.s 0 in0 cur state.offset (kind.rate - state.offset)) 1 in1 cur
          state.offset (kind.rate - state.offset)), 0⟩ (cur + (kind.rate - state.offset))
        (remaining - (kind.rate - state.offset)) = after at later ⊢
      obtain ⟨fewer, position, room, absorbed⟩ := later
      have total : len + (kind.rate - state.offset) + (remaining - (kind.rate - state.offset) - after.2.2) =
          len + (remaining - after.2.2) := by omega
      rw [total] at room absorbed
      exact ⟨by omega, by omega, room, absorbed⟩
    · rw [if_neg whole]
      simp only [Nat.sub_self, Nat.add_zero]
      exact ⟨Nat.le_refl _, trivial, by omega, holds⟩

theorem addNarrowByte (s : WordMem) {i : Nat} (h : i < 2) (in0 in1 : Mem) (cur n j : Nat) :
    byteAt (Loop.upTo n (fun l s => xorWord (xorWord s (2 * l) (loadWord in0 (cur + 8 * l))) (2 * l + 1)
      (loadWord in1 (cur + 8 * l))) s) i j =
      if j < 8 * n then byteAt s i j ^^^ choose in0 in1 i (cur + j) else byteAt s i j := by
  induction n with
  | zero => rfl
  | succ n ih =>
    rw [Loop.upToSucc, xorWordByte _ _ _ _ h (by decide), xorEvenByte _ _ _ _ h, ih]
    by_cases here : j / 8 = n
    · have position : cur + 8 * n + j % 8 = cur + j := by omega
      rw [if_neg (show ¬ j < 8 * n by omega), if_pos (show j < 8 * (n + 1) by omega), loadWord, loadWord,
        Words.byteOfBytes _ (by omega), Words.byteOfBytes _ (by omega), position]
      rcases eitherInstance h with rfl | rfl
      · rw [if_neg (by omega), if_pos ⟨rfl, here⟩]
        rfl
      · rw [if_pos ⟨rfl, here⟩, if_neg (by omega)]
        rfl
    · rw [if_neg (by omega), if_neg (by omega)]
      by_cases inside : j < 8 * n
      · rw [if_pos inside, if_pos (by omega)]
      · rw [if_neg inside, if_neg (by omega)]

theorem addNarrowLanes (s : WordMem) {i : Nat} (h : i < 2) (in0 in1 : Mem) (cur : Nat) {n : Nat}
    (narrow : n ≠ maxLanes kind) :
    lanesOf (addLanesAll kind s in0 in1 cur n) i =
      Sponge.addBytes bytewise (lanesOf s i) 0 (fun k => choose in0 in1 i (cur + k)) (8 * n) := by
  refine bytewise.byteExt _ _ fun j below => ?_
  rw [Sponge.byteAddBytes _ _ _ _ below]
  change stateByte _ j = if _ then stateByte _ j ^^^ _ else stateByte _ j
  rw [lanesByte _ _ below, lanesByte _ _ below, addLanesAll, if_neg narrow, addNarrowByte s h]
  simp only [Nat.zero_le, true_and, Nat.zero_add, Nat.sub_zero]

def Wide (kind : ShakeKind) (offset n : Nat) : Prop := offset = 0 ∧ n % 8 = 0 ∧ kind.rate ≤ n

instance (offset n : Nat) : Decidable (Wide kind offset n) := inferInstanceAs (Decidable (_ ∧ _ ∧ _))

theorem maxLanesRate (kind : ShakeKind) : 8 * maxLanes kind = kind.rate := by
  cases kind <;> rfl

theorem absorbLanesHolds {streams : Nat → Mem} {in0 in1 : Mem} {n len : Nat} {state : Keccakx2State}
    (holds : Absorbed kind f streams len state)
    (data : ∀ i < 2, ∀ k < 8 * n, choose in0 in1 i k = streams i (len + k))
    (start : state.offset = 0) (narrow : n < maxLanes kind) :
    Absorbed kind f streams (len + 8 * n) (absorbLanes kind f in0 in1 state 0 n) := by
  have open_ : len % kind.rate = 0 := by rw [← holds.offset, start]
  have width := maxLanesRate kind
  have room : len % kind.rate + 8 * n < kind.rate := by omega
  rw [absorbLanes]
  by_cases some_ : 0 < n
  · simp only [if_pos some_, if_neg (show ¬ n ≥ maxLanes kind by omega), if_neg (Nat.ne_of_lt narrow)]
    rw [absorbLanes, Nat.sub_self, if_neg (Nat.lt_irrefl 0)]
    refine ⟨?_, fun i below => ?_⟩
    · rw [← Nat.mod_add_mod, Nat.mod_eq_of_lt room]
      dsimp only
      omega
    · dsimp only
      rw [addNarrowLanes _ below _ _ _ (Nat.ne_of_lt narrow), holds.lanes i below,
        ← Sponge.takenPart (streams i) room, open_]
      refine Sponge.addBytesCongr fun k inside => ?_
      rw [Nat.zero_add]
      exact data i below k inside
  · rw [if_neg some_, show 8 * n = 0 by omega]
    exact holds

theorem incAbsorbHolds {streams : Nat → Mem} {in0 in1 : Mem} {n len : Nat} {state : Keccakx2State}
    (holds : Absorbed kind f streams len state)
    (data : ∀ i < 2, ∀ k < n, choose in0 in1 i k = streams i (len + k))
    (narrow : ¬ Wide kind (len % kind.rate) n) :
    Absorbed kind f streams (len + n) (incAbsorb kind f state in0 in1 n) := by
  rw [incAbsorb]
  by_cases aligned : state.offset = 0 ∧ n % 8 = 0
  · have width := maxLanesRate kind
    have fewer : ¬ kind.rate ≤ n := fun wide => narrow ⟨by rw [← holds.offset, aligned.1], aligned.2, wide⟩
    have whole : 8 * (n / 8) = n := by omega
    rw [if_pos aligned]
    have absorbed := absorbLanesHolds holds (n := n / 8) (fun i small k inside => data i small k (by omega))
      aligned.1 (by omega)
    rwa [whole] at absorbed
  · rw [if_neg aligned]
    obtain ⟨fewer, position, room, absorbed⟩ := absorbBlocksHolds in0 in1 n 0 holds
      (fun i small k inside => by
        rw [Nat.zero_add]
        exact data i small k inside)
    generalize absorbBlocks kind f in0 in1 state 0 n = after at fewer position room absorbed ⊢
    obtain ⟨state', cur, remaining⟩ := after
    dsimp only at fewer position room absorbed ⊢
    by_cases tail : 0 < remaining
    · rw [if_pos tail]
      have last := absorbedPart absorbed cur (n := remaining)
        (fun i small k inside => by
          rw [position, Nat.zero_add, Nat.add_assoc]
          exact data i small _ (by omega)) room
      rwa [Nat.add_assoc, Nat.sub_add_cancel fewer] at last
    · rw [if_neg tail]
      rwa [show n - remaining = n by omega] at absorbed

theorem addBothByte (s : WordMem) {i : Nat} (h : i < 2) (pad : UInt8) (offset j : Nat) :
    byteAt (addBoth s pad offset) i j = if j = offset then byteAt s i j ^^^ pad else byteAt s i j := by
  rw [addBoth, addBytesByte _ h (by decide), addBytesByte _ h (by decide)]
  rcases eitherInstance h with rfl | rfl
  · by_cases here : j = offset
    · rw [if_neg (by omega), if_pos (by omega), if_pos here]
    · rw [if_neg (by omega), if_neg (by omega), if_neg here]
  · by_cases here : j = offset
    · rw [if_pos (by omega), if_neg (by omega), if_pos here]
    · rw [if_neg (by omega), if_neg (by omega), if_neg here]

theorem incFinalizeByte (state : Keccakx2State) {i : Nat} (h : i < 2) (j : Nat) :
    byteAt (incFinalize kind state).s i j =
      byteAt state.s i j ^^^ Sponge.padByte kind.rate state.offset j := by
  have bounds := kind.rateBounds
  rw [incFinalize, Sponge.padByte]
  by_cases single : state.offset = kind.rate - 1
  · rw [if_pos single]
    dsimp only
    rw [addBothByte _ h]
    by_cases here : j = state.offset
    · rw [if_pos here, if_pos here, if_pos (by omega)]
      rfl
    · rw [if_neg here, if_neg here, if_neg (by omega), UInt8.xor_zero, UInt8.xor_zero]
  · rw [if_neg single]
    dsimp only
    rw [addBothByte _ h, addBothByte _ h]
    by_cases first : j = state.offset
    · rw [if_neg (by omega), if_pos first, if_pos first, if_neg (by omega), UInt8.xor_zero]
    · rw [if_neg first, if_neg first, UInt8.zero_xor]
      by_cases last : j = kind.rate - 1
      · rw [if_pos last, if_pos last]
      · rw [if_neg last, if_neg last, UInt8.xor_zero]

theorem finalizedLanes {messages : Nat → Bytes} {len : Nat} {state : Keccakx2State}
    (lengths : ∀ i < 2, (messages i).length = len)
    (holds : Absorbed kind f (fun i => Sponge.streamOf (messages i)) len state) {i : Nat} (h : i < 2) :
    f (lanesOf (incFinalize kind state).s i) = Sponge.blocks bytewise f kind.rate
      (Sponge.streamOf (Sponge.pad kind.rate (messages i))) ((Sponge.pad kind.rate (messages i)).length / kind.rate) := by
  have bounds := kind.rateBounds
  have below := Nat.mod_lt len (show 0 < kind.rate by omega)
  refine Sponge.absorbPadded (by omega) (messages i) fun j inside => ?_
  change stateByte _ j = stateByte _ j ^^^ _
  rw [lanesByte _ _ inside, incFinalizeByte _ h, lengths i h, ← holds.lanes i h, lanesByte _ _ inside, holds.offset]
  by_cases padded : len % kind.rate ≤ j ∧ j < kind.rate
  · rw [if_pos padded]
  · rw [if_neg padded, Sponge.padByte, if_neg (by omega), if_neg (by omega)]
    rfl

end Armor.Keccak.TwoLane
