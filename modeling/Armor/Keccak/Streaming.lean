import Armor.Keccak.Serving

/-! The streaming law of the two-lane squeeze: the sequences of lengths whose outputs join to the
output of one call, for every permutation and everything absorbed, are exactly `Continues`. -/
namespace Armor.Keccak.TwoLane

structure SqueezeCall where
  out : Mem × Mem
  outLen : Nat

section Bytes

variable (kind : ShakeKind) (f : Lanes → Lanes) (s : WordMem) (i : Nat)

def stateAt (p : Nat) : WordMem := (statePermutex2 f)^[p / kind.rate + 1] s

def plainAt (p : Nat) : UInt8 := byteAt (stateAt kind f s p) i (p % kind.rate)

def wideAt (p : Nat) : UInt8 := wideByte (stateAt kind f s p) i (p % kind.rate)

def squeezeAll : Keccakx2State → List SqueezeCall → Bytes
  | _, [] => []
  | state, c :: rest =>
    let after := incSqueeze kind f state c.out c.outLen
    ((choose after.2.1 after.2.2 i).block 0 c.outLen).toList ++ squeezeAll after.1 rest

end Bytes

structure At (kind : ShakeKind) (f : Lanes → Lanes) (s : WordMem) (p : Nat) (state : Keccakx2State) : Prop where
  words : state.s = (statePermutex2 f)^[(p + kind.rate - 1) / kind.rate] s
  offset : state.offset = (kind.rate - p % kind.rate) % kind.rate

variable {kind : ShakeKind} {f : Lanes → Lanes} {s : WordMem} {p : Nat} {state : Keccakx2State}

theorem atStart (s : WordMem) : At kind f s 0 ⟨s, 0⟩ := by
  cases kind <;> exact ⟨rfl, rfl⟩

theorem atBoundary (holds : At kind f s p state) : p % kind.rate = 0 ↔ state.offset = 0 := by
  rw [holds.offset]
  cases kind <;> simp only [ShakeKind.rate] <;> omega

theorem atPermuted (holds : At kind f s p state) (boundary : p % kind.rate = 0) :
    statePermutex2 f state.s = stateAt kind f s p := by
  have rounds : (p + kind.rate - 1) / kind.rate = p / kind.rate := by
    cases kind <;> simp only [ShakeKind.rate] at boundary ⊢ <;> omega
  rw [holds.words, stateAt, rounds, Function.iterate_succ_apply']

theorem atRead (holds : At kind f s p state) (begun : p % kind.rate ≠ 0) : state.s = stateAt kind f s p := by
  have rounds : (p + kind.rate - 1) / kind.rate = p / kind.rate + 1 := by
    cases kind <;> simp only [ShakeKind.rate] at begun ⊢ <;> omega
  rw [holds.words, stateAt, rounds]

theorem stateAtSame (boundary : p % kind.rate = 0) {b : Nat} (inside : b < kind.rate) :
    stateAt kind f s (p + b) = stateAt kind f s p ∧ (p + b) % kind.rate = b := by
  have block : (p + b) / kind.rate = p / kind.rate := by
    cases kind <;> simp only [ShakeKind.rate] at boundary inside ⊢ <;> omega
  rw [stateAt, stateAt, block, ← Nat.mod_add_mod, boundary, Nat.zero_add, Nat.mod_eq_of_lt inside]
  exact ⟨rfl, rfl⟩

theorem atNext (boundary : p % kind.rate = 0) {chunk : Nat} (some_ : 0 < chunk) (room : chunk ≤ kind.rate) :
    At kind f s (p + chunk) ⟨stateAt kind f s p, kind.rate - chunk⟩ where
  words := by
    have rounds : (p + chunk + kind.rate - 1) / kind.rate = p / kind.rate + 1 := by
      cases kind <;> simp only [ShakeKind.rate] at boundary room ⊢ <;> omega
    rw [rounds]
    rfl
  offset := by
    cases kind <;> simp only [ShakeKind.rate] at boundary room ⊢ <;> omega

theorem iterateLanes (f : Lanes → Lanes) (s : WordMem) {i : Nat} (h : i < 2) (k : Nat) :
    lanesOf ((statePermutex2 f)^[k] s) i = f^[k] (lanesOf s i) := by
  induction k with
  | zero => rfl
  | succ k ih => rw [Function.iterate_succ_apply', Function.iterate_succ_apply', permuteLanes f _ h, ih]

theorem plainAtSponge (f : Lanes → Lanes) (s : WordMem) {i : Nat} (h : i < 2) (q : Nat) :
    plainAt kind f s i q = Sponge.outByte bytewise f kind.rate (f (lanesOf s i)) q := by
  have bounds := kind.rateBounds
  have below := Nat.mod_lt q (show 0 < kind.rate by omega)
  rw [plainAt, ← lanesByte _ _ (by omega), stateAt, iterateLanes f _ h, Function.iterate_succ_apply]
  rfl

theorem plainAtFrom (holds : At kind f s p state) (boundary : p % kind.rate = 0) {i : Nat} (h : i < 2) (b : Nat) :
    Sponge.outByte bytewise f kind.rate (f (lanesOf state.s i)) b = plainAt kind f s i (p + b) := by
  have rounds : (p + b) / kind.rate + 1 = b / kind.rate + (p / kind.rate + 1) := by
    cases kind <;> simp only [ShakeKind.rate] at boundary ⊢ <;> omega
  have byte : (p + b) % kind.rate = b % kind.rate := by rw [← Nat.mod_add_mod, boundary, Nat.zero_add]
  have bounds := kind.rateBounds
  have below := Nat.mod_lt b (show 0 < kind.rate by omega)
  rw [← permuteLanes f _ h, atPermuted holds boundary, plainAt, stateAt, stateAt, rounds, byte,
    Function.iterate_add_apply _ (b / kind.rate), ← lanesByte _ _ (by omega), iterateLanes f _ h (b / kind.rate)]
  rfl

theorem squeezeBlocksAt (remaining : Nat) (holds : At kind f s p state) (boundary : p % kind.rate = 0)
    (out : Mem × Mem) (cur : Nat) : At kind f s (p + remaining) (squeezeBlocks kind f state out cur remaining).1 := by
  induction remaining using Nat.strongRecOn generalizing p state out cur with
  | ind remaining ih =>
    have bounds := kind.rateBounds
    rw [squeezeBlocks]
    by_cases some_ : 0 < remaining
    · rw [if_pos some_]
      dsimp only
      rw [atPermuted holds boundary]
      by_cases last : remaining < kind.rate
      · rw [if_pos last, Nat.sub_self, squeezeBlocks, if_neg (Nat.lt_irrefl 0)]
        exact atNext boundary some_ (by omega)
      · rw [if_neg last]
        have next := ih (remaining - kind.rate) (by omega) (atNext boundary (by omega) (Nat.le_refl _))
          (by rw [Nat.add_mod_right, boundary]) (extractBytes (stateAt kind f s p) 0 out.1 cur 0 kind.rate,
            extractBytes (stateAt kind f s p) 1 out.2 cur 0 kind.rate) (cur + kind.rate)
        rwa [show p + kind.rate + (remaining - kind.rate) = p + remaining by omega] at next
    · rw [if_neg some_, show remaining = 0 by omega]
      exact holds

theorem bytePathServes (holds : At kind f s p state) {n : Nat} (bytewise_ : ¬ WordPath kind p n) (out : Mem × Mem) :
    let after := incSqueeze kind f state out n
    (∀ i < 2, ∀ a < n, choose after.2.1 after.2.2 i a = plainAt kind f s i (p + a)) ∧
      At kind f s (p + n) after.1 := by
  have bounds := kind.rateBounds
  have path : ¬ (state.offset = 0 ∧ n % 8 = 0) := fun word => bytewise_ ⟨(atBoundary holds).mpr word.1, word.2⟩
  dsimp only
  rw [incSqueeze, if_neg path]
  dsimp only
  by_cases boundary : p % kind.rate = 0
  · have zero := (atBoundary holds).mp boundary
    have fresh : At kind f s p { state with offset := 0 } := ⟨holds.words, by rw [← holds.offset, zero]⟩
    rw [zero, if_neg (Nat.not_lt_zero n), Nat.sub_zero, Nat.sub_zero]
    refine ⟨fun i h a inside => ?_, squeezeBlocksAt n fresh boundary _ 0⟩
    rw [squeezeBlocksByte h, if_pos (by omega), Nat.sub_zero]
    exact plainAtFrom holds boundary h a
  · have open_ : state.offset = kind.rate - p % kind.rate := by
      have below := Nat.mod_lt p (show 0 < kind.rate by omega)
      rw [holds.offset, Nat.mod_eq_of_lt (by omega)]
    have from_ : kind.rate - state.offset = p % kind.rate := by
      have below := Nat.mod_lt p (show 0 < kind.rate by omega)
      omega
    have first : ∀ chunk ≤ state.offset, ∀ i < 2, ∀ a < chunk,
        choose (extractBytes state.s 0 out.1 0 (kind.rate - state.offset) chunk)
          (extractBytes state.s 1 out.2 0 (kind.rate - state.offset) chunk) i a = plainAt kind f s i (p + a) := by
      intro chunk room i h a inside
      have block : (p + a) / kind.rate = p / kind.rate ∧ (p + a) % kind.rate = p % kind.rate + a := by
        cases kind <;> simp only [ShakeKind.rate] at boundary open_ ⊢ <;> omega
      rw [extractBothByte _ h, if_pos (by omega), plainAt, stateAt, block.1, block.2, from_, atRead holds boundary,
        Nat.sub_zero]
      rfl
    by_cases short : n < state.offset
    · rw [if_pos short, Nat.sub_self, squeezeBlocks, if_neg (Nat.lt_irrefl 0)]
      refine ⟨first n (by omega), ?_, ?_⟩
      · dsimp only
        rw [holds.words]
        congr 1
        cases kind <;> simp only [ShakeKind.rate] at boundary open_ ⊢ <;> omega
      · dsimp only
        cases kind <;> simp only [ShakeKind.rate] at boundary open_ ⊢ <;> omega
    · rw [if_neg short, Nat.sub_self]
      have next : (p + state.offset) % kind.rate = 0 := by
        cases kind <;> simp only [ShakeKind.rate] at boundary open_ ⊢ <;> omega
      have ended : At kind f s (p + state.offset) { state with offset := 0 } := by
        refine ⟨?_, ?_⟩
        · dsimp only
          rw [holds.words]
          congr 1
          cases kind <;> simp only [ShakeKind.rate] at boundary open_ ⊢ <;> omega
        · rw [next, Nat.sub_zero, Nat.mod_self]
      refine ⟨fun i h a inside => ?_, ?_⟩
      · rw [squeezeBlocksByte h]
        by_cases early : a < state.offset
        · rw [if_neg (by omega)]
          exact first _ (Nat.le_refl _) i h a early
        · rw [if_pos (by omega), plainAtFrom ended next h, show p + state.offset + (a - state.offset) = p + a by omega]
      · have blocks := squeezeBlocksAt (n - state.offset) ended next (extractBytes state.s 0 out.1 0
          (kind.rate - state.offset) state.offset, extractBytes state.s 1 out.2 0 (kind.rate - state.offset)
          state.offset) state.offset
        rwa [show p + state.offset + (n - state.offset) = p + n by omega] at blocks

theorem squeezeLanesServes (lanes : Nat) (holds : At kind f s p state) (boundary : p % kind.rate = 0)
    (out : Mem × Mem) (cur : Nat) :
    let after := squeezeLanes kind f state out cur lanes
    (∀ i < 2, ∀ b < 8 * lanes, choose after.2.1 after.2.2 i (cur + b) =
      servedByte kind (plainAt kind f s i) (wideAt kind f s i) p (8 * lanes) b) ∧
      At kind f s (roundUp kind (p + 8 * lanes)) after.1 := by
  induction lanes using Nat.strongRecOn generalizing p state out cur with
  | ind lanes ih =>
    have bounds := kind.rateBounds
    have width := maxLanesRate kind
    have narrow : kind.rate ≤ 168 := by cases kind <;> decide
    have word : WordPath kind p (8 * lanes) := ⟨boundary, by omega⟩
    rw [squeezeLanes]
    by_cases some_ : 0 < lanes
    · rw [if_pos some_]
      dsimp only
      rw [atPermuted holds boundary]
      by_cases full : lanes ≥ maxLanes kind
      · rw [if_pos full]
        have next : (p + kind.rate) % kind.rate = 0 := by rw [Nat.add_mod_right, boundary]
        have offset : (if lanes - maxLanes kind > 0 then kind.rate - maxLanes kind * 8 else 0) =
            kind.rate - kind.rate := by
          split <;> omega
        have later := ih (lanes - maxLanes kind) (by have := maxLanesPositive kind; omega)
          (atNext boundary (by omega) (Nat.le_refl _)) next
          (extractLanesAll kind (stateAt kind f s p) out cur (maxLanes kind)) (cur + maxLanes kind * 8)
        dsimp only at later ⊢
        rw [offset]
        refine ⟨fun i h b inside => ?_, ?_⟩
        · by_cases first : b < kind.rate
          · have same := stateAtSame (f := f) (s := s) boundary first
            rw [squeezeLanesBefore h _ _ _ (by omega), extractWideByte _ h, if_pos (by omega), servedByte, if_pos
              ⟨word, by rw [Nat.div_eq_of_lt first]; omega⟩, wideAt, same.1, same.2, Nat.add_sub_cancel_left]
          · have byte := later.1 i h (b - kind.rate) (by omega)
            have whole : kind.rate % kind.rate = 0 := Nat.mod_self _
            have total : 8 * lanes = kind.rate + 8 * (lanes - maxLanes kind) := by omega
            have position : cur + b = cur + maxLanes kind * 8 + (b - kind.rate) := by omega
            rw [position, byte, total, ← servedByteAfter boundary whole (by omega), Nat.add_sub_cancel' (by omega)]
        · have reached := later.2
          rwa [show p + kind.rate + 8 * (lanes - maxLanes kind) = p + 8 * lanes by omega] at reached
      · rw [if_neg full, Nat.sub_self, if_neg (Nat.lt_irrefl 0), squeezeLanes, if_neg (Nat.lt_irrefl 0)]
        refine ⟨fun i h b inside => ?_, ?_, ?_⟩
        · have same := stateAtSame (f := f) (s := s) boundary (show b < kind.rate by omega)
          have part : ¬ (b / kind.rate + 1) * kind.rate ≤ 8 * lanes := by
            rw [Nat.div_eq_of_lt (by omega)]
            omega
          dsimp only
          rw [extractLanesAll, if_neg (by omega)]
          rw [extractNarrowByte _ h, if_pos (by omega), servedByte, if_neg fun wide => part wide.2, plainAt, same.1,
            same.2, Nat.add_sub_cancel_left]
        · dsimp only
          rw [stateAt]
          congr 1
          cases kind <;> simp only [ShakeKind.rate, maxLanes, roundUp] at boundary full ⊢ <;> omega
        · rw [roundUp, Nat.mul_mod_left, Nat.sub_zero, Nat.mod_self]
    · rw [if_neg some_, show lanes = 0 by omega]
      refine ⟨fun i h b inside => absurd inside (Nat.not_lt_zero b), ?_⟩
      rw [Nat.mul_zero, Nat.add_zero, roundUpBoundary boundary]
      exact holds

theorem squeezeServes (holds : At kind f s p state) (n : Nat) (out : Mem × Mem) :
    let after := incSqueeze kind f state out n
    (∀ i < 2, ((choose after.2.1 after.2.2 i).block 0 n).toList =
      served kind (plainAt kind f s i) (wideAt kind f s i) p n) ∧ At kind f s (nextPosition kind p n) after.1 := by
  have bytes : (∀ i < 2, ∀ a < n, choose (incSqueeze kind f state out n).2.1 (incSqueeze kind f state out n).2.2 i a =
      servedByte kind (plainAt kind f s i) (wideAt kind f s i) p n a) ∧
      At kind f s (nextPosition kind p n) (incSqueeze kind f state out n).1 := by
    by_cases word : WordPath kind p n
    · have lanes := squeezeLanesServes (n / 8) holds word.1 out 0
      have whole : 8 * (n / 8) = n := by
        have := word.2
        omega
      dsimp only at lanes
      rw [whole] at lanes
      simp only [Nat.zero_add] at lanes
      rw [incSqueeze, if_pos ⟨(atBoundary holds).mp word.1, word.2⟩, nextPosition, if_pos word]
      exact lanes
    · have bytewise := bytePathServes holds word out
      rw [nextPositionPlain (Or.inr word)]
      refine ⟨fun i h a inside => ?_, bytewise.2⟩
      rw [servedByte, if_neg fun wide => word wide.1]
      exact bytewise.1 i h a inside
  refine ⟨fun i h => List.ext_getElem ?_ fun k left right => ?_, bytes.2⟩
  · rw [Vector.length_toList, servedLength]
  · have inside : k < n := by rwa [Vector.length_toList] at left
    rw [Vector.getElem_toList, Mem.blockAt inside, Nat.zero_add]
    simp only [served, List.getElem_map, List.getElem_range]
    exact bytes.1 i h k inside

theorem squeezeAllServes (calls : List SqueezeCall) (holds : At kind f s p state) {i : Nat} (h : i < 2) :
    squeezeAll kind f i state calls =
      servedAll kind (plainAt kind f s i) (wideAt kind f s i) p (calls.map SqueezeCall.outLen) := by
  induction calls generalizing p state with
  | nil => rfl
  | cons c rest ih =>
    have step := squeezeServes holds c.outLen c.out
    rw [squeezeAll, List.map_cons, servedAll, ← ih step.2, ← step.1 i h]

def finalized (kind : ShakeKind) (f : Lanes → Lanes) (calls : List Call) : Keccakx2State :=
  incFinalize kind (absorbAll kind f calls incInit)

theorem finalizedAt (calls : List Call) :
    At kind f (finalized kind f calls).s 0 (finalized kind f calls) := by
  have start : At kind f (finalized kind f calls).s 0 ⟨(finalized kind f calls).s, 0⟩ := atStart _
  exact ⟨start.words, (finalizeOffset kind _).trans start.offset⟩

def Streams (kind : ShakeKind) (f : Lanes → Lanes) (calls : List Call) (lengths : List Nat) : Prop :=
  ∀ squeezes : List SqueezeCall, squeezes.map SqueezeCall.outLen = lengths → ∀ out, ∀ i < 2,
    squeezeAll kind f i (finalized kind f calls) squeezes =
      squeezeAll kind f i (finalized kind f calls) [⟨out, lengths.sum⟩]

theorem streamsServed (kind : ShakeKind) (f : Lanes → Lanes) (calls : List Call) (lengths : List Nat) :
    Streams kind f calls lengths ↔ ∀ i < 2,
      servedAll kind (plainAt kind f (finalized kind f calls).s i) (wideAt kind f (finalized kind f calls).s i) 0
        lengths =
      served kind (plainAt kind f (finalized kind f calls).s i) (wideAt kind f (finalized kind f calls).s i) 0
        lengths.sum := by
  have single : ∀ out, ∀ i < 2, squeezeAll kind f i (finalized kind f calls) [⟨out, lengths.sum⟩] =
      served kind (plainAt kind f (finalized kind f calls).s i) (wideAt kind f (finalized kind f calls).s i) 0
        lengths.sum := fun out i h => by
    rw [squeezeAllServes _ (finalizedAt calls) h, List.map_singleton, servedAll, servedAll, List.append_nil]
  constructor
  · intro streams i h
    have lens : (lengths.map fun n => (⟨(quiet, quiet), n⟩ : SqueezeCall)).map SqueezeCall.outLen = lengths := by
      rw [List.map_map]
      exact List.map_id lengths
    rw [← single (quiet, quiet) i h, ← streams _ lens _ i h, squeezeAllServes _ (finalizedAt calls) h, lens]
  · rintro same squeezes rfl out i h
    rw [single out i h, squeezeAllServes _ (finalizedAt calls) h, same i h]

section Marked

def keepFirst (a : Lanes) : Lanes := Vector.ofFn fun l => if l.val = 0 then getElem a 0 someLane else 0

def oneByte : Call := ⟨fun _ => 1, fun _ => 2, 1⟩

theorem keepFirstWords (s : WordMem) (k : Nat) {w : Nat} (inside : w < 50) :
    ((statePermutex2 keepFirst)^[k + 1] s) w = if w < 2 then s w else 0 := by
  have once : ∀ t : WordMem, statePermutex2 keepFirst t w = if w < 2 then t w else 0 := fun t => by
    rw [statePermutex2, dif_pos inside, keepFirst, Vector.getElem_ofFn]
    by_cases first : w < 2
    · rw [if_pos (show w / 2 = 0 by omega), if_pos first, lanesOf, Vector.getElem_ofFn]
      congr 1
      dsimp only
      omega
    · rw [if_neg (show ¬ w / 2 = 0 by omega), if_neg first]
  induction k with
  | zero => exact once s
  | succ k ih =>
    rw [Function.iterate_succ_apply', once, ih]
    split <;> rfl

theorem oneByteAbsorbed (kind : ShakeKind) {i : Nat} (h : i < 2) :
    byteAt (finalized kind keepFirst [oneByte]).s i 0 = choose 1 2 i := by
  have bounds := kind.rateBounds
  have absorbed : absorbAll kind keepFirst [oneByte] incInit =
      ⟨addBytes (addBytes incInit.s 0 (fun _ => 1) 0 0 1) 1 (fun _ => 2) 0 0 1, 0 + 1⟩ := by
    rw [absorbAll, List.foldl_cons, List.foldl_nil, oneByte]
    dsimp only
    rw [incAbsorb, if_neg (by decide), absorbBlocks, if_neg (show ¬ 1 + incInit.offset ≥ kind.rate by
      change ¬ 1 + 0 ≥ kind.rate
      omega)]
    rfl
  have pad : Sponge.padByte kind.rate (0 + 1) 0 = 0 := by
    rw [Sponge.padByte, if_neg (by decide), if_neg (by omega)]
    rfl
  rw [finalized, incFinalizeByte _ h, absorbed]
  dsimp only
  rw [pad, UInt8.xor_zero, addBytesByte _ h (by decide), addBytesByte _ h (by decide)]
  rcases eitherInstance h with rfl | rfl <;> rfl

theorem markedTelling (kind : ShakeKind) :
    Telling kind (plainAt kind keepFirst (finalized kind keepFirst [oneByte]).s)
      (wideAt kind keepFirst (finalized kind keepFirst [oneByte]).s) 1 := by
  have first := oneByteAbsorbed kind (i := 0) (by decide)
  have second := oneByteAbsorbed kind (i := 1) (by decide)
  generalize (finalized kind keepFirst [oneByte]).s = s at first second ⊢
  have narrow : kind.rate ≤ 168 := by cases kind <;> decide
  have zeroByte : Words.byteOf 0 0 = 0 := Words.byteOfZero 0
  have words : ∀ q, ∀ w < 50, stateAt kind keepFirst s q w = if w < 2 then s w else 0 := fun q w inside =>
    keepFirstWords s _ inside
  refine ⟨fun q boundary => ?_, fun q words_ begun => ?_, fun q boundary => ?_⟩
  · rw [plainAt, wideAt, boundary]
    refine ⟨?_, ?_⟩
    · exact (congrArg (Words.byteOf · 0) (words q 0 (by decide))).trans first
    · exact (congrArg (Words.byteOf · 0) (words q 0 (by decide))).trans first
  · have bounds := kind.rateBounds
    have below := Nat.mod_lt q (show 0 < kind.rate by omega)
    have aligned : q % kind.rate % 8 = 0 := by
      cases kind <;> simp only [ShakeKind.rate] <;> omega
    rw [plainAt, wideAt]
    generalize q % kind.rate = b at begun below aligned ⊢
    have later : 1 ≤ b / 8 ∧ b / 8 ≤ 20 := by omega
    refine ⟨?_, ?_⟩
    · rw [byteAt, words q _ (by omega), if_neg (by omega), aligned, zeroByte]
      decide
    · rw [wideByte, aligned]
      generalize b / 8 = l at later
      by_cases one : l = 1
      · subst one
        have read : stateAt kind keepFirst s q (wideWord 0 1) = s 1 := words q 1 (by decide)
        rw [read]
        change byteAt s 1 0 ≠ 1
        rw [second]
        decide
      · have range : 2 ≤ wideWord 0 l ∧ wideWord 0 l < 50 := by
          rw [wideWord]
          split <;> omega
        rw [words q _ range.2, if_neg (by omega), zeroByte]
        decide
  · rw [plainAt, wideAt, boundary]
    have plain : byteAt (stateAt kind keepFirst s q) 1 0 = 2 :=
      (congrArg (Words.byteOf · 0) (words q 1 (by decide))).trans second
    have wide : wideByte (stateAt kind keepFirst s q) 1 0 = 0 :=
      (congrArg (Words.byteOf · 0) (words q 2 (by decide))).trans zeroByte
    rw [plain, wide]
    decide

end Marked

theorem streamingLaw (kind : ShakeKind) (lengths : List Nat) :
    (∀ f calls, Streams kind f calls lengths) ↔ Continues kind lengths := by
  constructor
  · intro streams
    exact continuesNeeded (markedTelling kind) ((streamsServed kind _ _ lengths).mp (streams keepFirst [oneByte]))
  · intro continues f calls
    exact (streamsServed kind f calls lengths).mpr fun i _ => continuesServes continues

theorem secondBlockOutput :
    stateByte (keccakF (keccakF emptyBlock)) 0 ≠ stateByte (keccakF emptyBlock) 8 := by
  decide +kernel

theorem twoWordsDiffer : ¬ Streams .shake128 keccakF [] [8, 8] := by
  intro streams
  have same := (streamsServed _ _ _ _).mp streams 0 (by decide)
  have at_ := congrArg (fun l => l[8]?) same
  rw [servedAt _ (by decide), servedByte, if_neg (by decide), servedAll,
    List.getElem?_append_right (by rw [servedLength]), servedLength, servedAll,
    List.getElem?_append_left (by rw [servedLength]; decide), servedAt _ (by decide), servedByte,
    if_neg (by decide)] at at_
  have next : nextPosition .shake128 0 8 + (8 - 8) = 168 := by decide
  have plain : bytewise.byte = stateByte := rfl
  have second : Sponge.outByte bytewise keccakF 168 (keccakF emptyBlock) 168 =
      stateByte (keccakF (keccakF emptyBlock)) 0 := by
    rw [Sponge.outByte, Nat.div_self (by decide), Nat.mod_self, Function.iterate_one, plain]
  have first : Sponge.outByte bytewise keccakF 168 (keccakF emptyBlock) (0 + 8) =
      stateByte (keccakF emptyBlock) 8 := by
    rw [Sponge.outByteFirst _ (by decide), plain]
  rw [next, plainAtSponge _ _ (by decide), plainAtSponge _ _ (by decide), finalized,
    emptyFinalized (by decide)] at at_
  have rate : ShakeKind.shake128.rate = 168 := rfl
  rw [rate, Option.some.injEq, second, first] at at_
  exact secondBlockOutput at_

end Armor.Keccak.TwoLane
