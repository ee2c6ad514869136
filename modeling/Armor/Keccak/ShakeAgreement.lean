import Armor.Keccak.TwoLaneShake

/-! Where the two-lane Keccak is two SHAKE instances, and one input on which it is not. -/
namespace Armor.Keccak.TwoLane

variable {kind : ShakeKind} {f : Lanes → Lanes}

def wideWord (instanceIndex l : Nat) : Nat :=
  if l = 20 then 40 + instanceIndex else 2 * (l / 2 * 2 + instanceIndex) + l % 2

def wideByte (s : WordMem) (instanceIndex b : Nat) : UInt8 := Words.byteOf (s (wideWord instanceIndex (b / 8))) (b % 8)

theorem extractPairedByte (s : WordMem) {i : Nat} (h : i < 2) (out : Mem × Mem) (cur j a : Nat) :
    choose (extractPaired s cur j out).1 (extractPaired s cur j out).2 i a =
      if cur + 8 * j ≤ a ∧ a < cur + 8 * j + 16 then
        Words.byteOf (s (2 * (j + i) + (a - (cur + 8 * j)) / 8)) ((a - (cur + 8 * j)) % 8)
      else choose out.1 out.2 i a := by
  have stored : choose (extractPaired s cur j out).1 (extractPaired s cur j out).2 i =
      storeVec (choose out.1 out.2 i) (cur + 8 * j) (svld1 s (2 * (j + i))) := by
    rcases eitherInstance h with rfl | rfl <;> rfl
  rw [stored, storeVec, storeWord, storePart, storeWord, storePart]
  by_cases second : cur + 8 * j + 8 ≤ a ∧ a < cur + 8 * j + 8 + 8
  · rw [if_pos second, if_pos (by omega), show (a - (cur + 8 * j)) / 8 = 1 by omega,
      show (a - (cur + 8 * j)) % 8 = 0 + (a - (cur + 8 * j + 8)) by omega]
    rfl
  · rw [if_neg second]
    by_cases first : cur + 8 * j ≤ a ∧ a < cur + 8 * j + 8
    · rw [if_pos first, if_pos (by omega), show (a - (cur + 8 * j)) / 8 = 0 by omega,
        show (a - (cur + 8 * j)) % 8 = 0 + (a - (cur + 8 * j)) by omega]
      rfl
    · rw [if_neg first, if_neg (by omega)]

theorem extractPairsByte (s : WordMem) {i : Nat} (h : i < 2) (out : Mem × Mem) (cur m a : Nat) :
    let pairs := Loop.upTo m (fun t => extractPaired s cur (2 * t)) out
    choose pairs.1 pairs.2 i a =
      if cur ≤ a ∧ a < cur + 16 * m then
        Words.byteOf (s (2 * ((a - cur) / 8 / 2 * 2 + i) + (a - cur) / 8 % 2)) ((a - cur) % 8)
      else choose out.1 out.2 i a := by
  induction m with
  | zero =>
    rw [if_neg (by omega)]
    rfl
  | succ m ih =>
    dsimp only at ih ⊢
    rw [Loop.upToSucc, extractPairedByte _ h]
    by_cases here : cur + 8 * (2 * m) ≤ a ∧ a < cur + 8 * (2 * m) + 16
    · have pair : (a - cur) / 8 / 2 * 2 = 2 * m := by omega
      have half : (a - cur) / 8 % 2 = (a - (cur + 8 * (2 * m))) / 8 := by omega
      have byte : (a - cur) % 8 = (a - (cur + 8 * (2 * m))) % 8 := by omega
      rw [if_pos here, if_pos (by omega), pair, half, byte]
    · rw [if_neg here, ih]
      by_cases inside : cur ≤ a ∧ a < cur + 16 * m
      · rw [if_pos inside, if_pos (by omega)]
      · rw [if_neg inside, if_neg (by omega)]

theorem extractWideByte (s : WordMem) {i : Nat} (h : i < 2) (out : Mem × Mem) (cur a : Nat) :
    choose (extractLanesAll kind s out cur (maxLanes kind)).1 (extractLanesAll kind s out cur (maxLanes kind)).2 i a =
      if cur ≤ a ∧ a < cur + 168 then wideByte s i (a - cur) else choose out.1 out.2 i a := by
  have pairs := extractPairsByte s h out cur 10 a
  rw [extractLanesAll, if_pos rfl]
  dsimp only at pairs ⊢
  generalize Loop.upTo 10 (fun t => extractPaired s cur (2 * t)) out = stored at pairs ⊢
  have last : choose (storeWord stored.1 (cur + 8 * 20) (s 40)) (storeWord stored.2 (cur + 8 * 20) (s 41)) i =
      storeWord (choose stored.1 stored.2 i) (cur + 8 * 20) (s (40 + i)) := by
    rcases eitherInstance h with rfl | rfl <;> rfl
  rw [last, storeWord, storePart, wideByte, wideWord]
  by_cases tail : cur + 8 * 20 ≤ a ∧ a < cur + 8 * 20 + 8
  · have byte : (a - cur) % 8 = 0 + (a - (cur + 8 * 20)) := by omega
    rw [if_pos tail, if_pos (by omega), if_pos (by omega), byte]
  · rw [if_neg tail, pairs]
    by_cases inside : cur ≤ a ∧ a < cur + 16 * 10
    · rw [if_pos inside, if_pos (by omega), if_neg (by omega)]
    · rw [if_neg inside, if_neg (by omega)]

theorem extractLanesAllBefore (s : WordMem) {i : Nat} (h : i < 2) (out : Mem × Mem) {cur a : Nat} (n : Nat)
    (before : a < cur) : choose (extractLanesAll kind s out cur n).1 (extractLanesAll kind s out cur n).2 i a =
      choose out.1 out.2 i a := by
  by_cases full : n = maxLanes kind
  · subst full
    rw [extractWideByte s h, if_neg (by omega)]
  · rw [extractLanesAll, if_neg full, extractNarrowByte s h, if_neg (by omega)]

theorem squeezeLanesBefore {i : Nat} (h : i < 2) (lanes : Nat) (state : Keccakx2State) (out : Mem × Mem) {cur a : Nat}
    (before : a < cur) : choose (squeezeLanes kind f state out cur lanes).2.1
      (squeezeLanes kind f state out cur lanes).2.2 i a = choose out.1 out.2 i a := by
  have positive := maxLanesPositive kind
  induction lanes using Nat.strongRecOn generalizing state out cur with
  | ind lanes ih =>
    rw [squeezeLanes]
    split
    · dsimp only
      rw [ih _ (by split <;> omega) _ _ (by omega), extractLanesAllBefore _ h _ _ before]
    · rfl

theorem wideSqueezeByte {n : Nat} {state : Keccakx2State} (start : state.offset = 0) (wide : Wide kind 0 n)
    (out : Mem × Mem) : choose (incSqueeze kind f state out n).2.1 (incSqueeze kind f state out n).2.2 0 8 =
      stateByte (f (lanesOf state.s 1)) 0 := by
  have positive := maxLanesPositive kind
  have width := maxLanesRate kind
  obtain ⟨-, whole, filled⟩ := wide
  have full : n / 8 ≥ maxLanes kind := by omega
  rw [incSqueeze, if_pos ⟨start, whole⟩, squeezeLanes, if_pos (by omega)]
  dsimp only
  rw [if_pos full, squeezeLanesBefore (by decide) _ _ _ (by have := kind.rateBounds; omega),
    extractWideByte _ (by decide), if_pos (by omega), ← permuteLanes f _ (by decide), lanesByte _ _ (by decide)]
  rfl

theorem squeezesByte {calls : List Call} {n : Nat} (correct : SqueezesShake kind f calls n) (out : Mem × Mem)
    {i k : Nat} (h : i < 2) (inside : k < n) :
    choose (twoLane kind f calls n out).1 (twoLane kind f calls n out).2 i k =
      Sponge.outByte bytewise f kind.rate (Sponge.blocks bytewise f kind.rate
        (Sponge.streamOf (Sponge.pad kind.rate (stream calls i)))
        ((Sponge.pad kind.rate (stream calls i)).length / kind.rate)) k := by
  have same := congrArg (fun l => l.getD k 0) (correct out i h).1
  rw [List.getD_eq_getElem _ _ (by rwa [Vector.length_toList]), Vector.getElem_toList, Mem.blockAt inside,
    Nat.zero_add, Sponge.shake, List.getD_eq_getElem _ _ (by rwa [List.length_map, List.length_range]),
    List.getElem_map, List.getElem_range] at same
  exact same

def firstLane : Lanes := Vector.ofFn fun l => if l.val = 0 then 1 else 0

theorem wideSqueezeFails {n : Nat} (wide : Wide kind 0 n) (calls : List Call) :
    ¬ SqueezesShake kind (fun _ => firstLane) calls n := by
  intro correct
  have bounds := kind.rateBounds
  have byte := squeezesByte correct (quiet, quiet) (i := 0) (k := 8) (by decide) (by have := wide.2.2; omega)
  have written : choose (twoLane kind (fun _ => firstLane) calls n (quiet, quiet)).1
      (twoLane kind (fun _ => firstLane) calls n (quiet, quiet)).2 0 8 = stateByte firstLane 0 :=
    wideSqueezeByte (finalizeOffset _ _) wide _
  rw [written, Sponge.outByteFirst _ bounds.1, Sponge.padLength (by omega),
    Nat.mul_div_cancel _ (by omega), Sponge.blocks] at byte
  have values : stateByte firstLane 0 ≠ stateByte firstLane 8 := by decide
  exact values byte

theorem wideAbsorbFails {lengths : List Nat} {n : Nat} (some_ : 0 < n) (narrow : ¬ Wide kind 0 n)
    (wide : ¬ NarrowFrom kind 0 lengths) (correct : ∀ calls, calls.map Call.inLen = lengths →
      SqueezesShake kind id calls n) : False := by
  have bounds := kind.rateBounds
  have loud := squeezesByte (correct (marked kind 0 lengths) (markedLengths lengths 0)) (quiet, quiet)
    (i := 1) (k := 0) (by decide) some_
  have soft := squeezesByte (correct (lengths.map silent) (by rw [List.map_map]; exact List.map_id lengths))
    (quiet, quiet) (i := 1) (k := 0) (by decide) some_
  have first : ∀ calls, choose (twoLane kind id calls n (quiet, quiet)).1 (twoLane kind id calls n (quiet, quiet)).2 1 0
      = byteAt (absorbAll kind id calls incInit).s 1 0 ^^^
        Sponge.padByte kind.rate (absorbAll kind id calls incInit).offset 0 := fun calls => by
    rw [twoLane, incSqueezeByte (by decide) (finalizeOffset _ _) narrow, if_pos some_, Sponge.outByte, Nat.zero_div,
      Nat.zero_mod, Function.iterate_zero, id_eq, id_eq, bytewiseByte _ _ (by decide), incFinalizeByte _ (by decide)]
  have marks : absorbAll kind id (marked kind 0 lengths) incInit =
      ⟨xorWord (fun _ => 0) 1 1, (0 + lengths.sum) % kind.rate⟩ := by
    rw [← absorbAllMarked lengths 0 wide, Nat.zero_mod]
    rfl
  have zeros : absorbAll kind id (lengths.map silent) incInit = ⟨fun _ => 0, (0 + lengths.sum) % kind.rate⟩ :=
    absorbAllSilent lengths (show 0 < kind.rate by omega)
  rw [first, marks, markedSecond, ← soft, first, zeros] at loud
  have values : byteAt (xorWord (fun _ => 0) 1 1) 1 0 = byteAt (fun _ => 0) 1 0 := (UInt8.xor_left_inj _).mp loud
  exact absurd values (by decide)

theorem twoLaneShake (kind : ShakeKind) (lengths : List Nat) (n : Nat) :
    (∀ f calls, calls.map Call.inLen = lengths → SqueezesShake kind f calls n) ↔ n = 0 ∨ Narrow kind lengths n := by
  constructor
  · intro correct
    by_contra bad
    obtain ⟨some_, wide⟩ := not_or.mp bad
    by_cases squeeze : Wide kind 0 n
    · exact wideSqueezeFails squeeze _ (correct _ (lengths.map silent) (by
        rw [List.map_map]
        exact List.map_id lengths))
    · exact wideAbsorbFails (Nat.pos_of_ne_zero some_) squeeze (fun narrow => wide ⟨narrow, squeeze⟩) (correct id)
  · rintro (rfl | narrow) f calls rfl
    · intro out i h
      refine ⟨rfl, fun a _ => ?_⟩
      have nothing : ¬ Wide kind 0 0 := fun wide => by
        have := kind.rateBounds
        have := wide.2.2
        omega
      refine (incSqueezeByte h (finalizeOffset _ _) nothing out a).trans ?_
      rw [if_neg (Nat.not_lt_zero a)]
    · exact narrowSqueezes narrow

def emptyBlock : Lanes :=
  #v[0x1f, 0, 0, 0, 0, 0, 0, 0, 0, 0, 0, 0, 0, 0, 0, 0, 0, 0, 0, 0, 0x8000000000000000, 0, 0, 0, 0]

theorem emptyBlockBytes : ∀ j < 200, stateByte emptyBlock j =
    if j < 168 then Sponge.streamOf (Sponge.pad 168 []) j else 0 := by
  decide +kernel

theorem emptyBlockAdded : Sponge.addBytes bytewise bytewise.zero 0
    (fun k => Sponge.streamOf (Sponge.pad 168 []) (0 * 168 + k)) 168 = emptyBlock := by
  refine bytewise.byteExt _ _ fun j below => ?_
  refine Eq.trans ?_ (emptyBlockBytes j below).symm
  rw [Sponge.byteAddBytes _ _ _ _ below, bytewise.byteZero j below, UInt8.zero_xor]
  simp only [Nat.zero_le, true_and, Nat.zero_add, Nat.zero_mul, Nat.sub_zero]

theorem emptyOutput : stateByte (keccakF emptyBlock) 0 ≠ stateByte (keccakF emptyBlock) 8 := by
  decide +kernel

theorem emptySponge : Sponge.blocks bytewise keccakF 168 (Sponge.streamOf (Sponge.pad 168 []))
    ((Sponge.pad 168 []).length / 168) = keccakF emptyBlock := by
  have wide : 1 < 168 := by decide
  rw [Sponge.padLength wide, Nat.mul_div_cancel _ (Nat.zero_lt_of_lt wide), List.length_nil, Nat.zero_div,
    Sponge.blocks]
  exact congrArg keccakF emptyBlockAdded

theorem emptyStream (i : Nat) : Sponge.blocks bytewise keccakF ShakeKind.shake128.rate
    (Sponge.streamOf (Sponge.pad ShakeKind.shake128.rate (stream [] i)))
    ((Sponge.pad ShakeKind.shake128.rate (stream [] i)).length / ShakeKind.shake128.rate) = keccakF emptyBlock :=
  emptySponge

theorem emptyFinalized {i : Nat} (h : i < 2) :
    keccakF (lanesOf (incFinalize .shake128 (absorbAll .shake128 keccakF [] incInit)).s i) = keccakF emptyBlock := by
  have narrow : NarrowFrom .shake128 0 (List.map Call.inLen []) := trivial
  rw [absorbedStream (f := keccakF) narrow h, emptyStream]

theorem emptyBlockDiffers : ¬ SqueezesShake .shake128 keccakF [] 168 := by
  intro correct
  have byte := squeezesByte correct (quiet, quiet) (i := 0) (k := 8) (by decide) (by decide)
  have written : choose (twoLane .shake128 keccakF [] 168 (quiet, quiet)).1
      (twoLane .shake128 keccakF [] 168 (quiet, quiet)).2 0 8 = stateByte (keccakF _) 0 :=
    wideSqueezeByte (finalizeOffset _ _) (show Wide .shake128 0 168 by decide) (quiet, quiet)
  rw [emptyFinalized (by decide)] at written
  rw [written, emptyStream, Sponge.outByteFirst _ (by decide)] at byte
  have plain : bytewise.byte = stateByte := rfl
  rw [plain] at byte
  exact emptyOutput byte

end Armor.Keccak.TwoLane
