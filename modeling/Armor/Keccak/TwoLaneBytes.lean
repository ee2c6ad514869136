import Armor.Keccak.TwoLaneFacts

/-! `KeccakP1600times2_AddBytes` and `KeccakP1600times2_ExtractBytes` with their `while` loops, and
what they do to the bytes of the two instances. -/
namespace Armor.Keccak.TwoLane

structure Cursor where
  curData : Nat
  lanePosition : Nat
  sizeLeft : Nat

def Cursor.start (offset length : Nat) : Cursor := ⟨0, offset / 8, length⟩

def Cursor.past (cursor : Cursor) (bytes : Nat) : Cursor :=
  ⟨cursor.curData + bytes, cursor.lanePosition + 1, cursor.sizeLeft - bytes⟩

def bytesInLane (offset sizeLeft : Nat) : Nat :=
  if 8 - offset % 8 > sizeLeft then sizeLeft else 8 - offset % 8

variable (instanceIndex : Nat)

section Add

variable (data : Mem)

def addLane (s : WordMem) (cursor : Cursor) (lane : UInt64) : WordMem :=
  xorWord s (2 * cursor.lanePosition + instanceIndex) lane

def addLoop (s : WordMem) (cursor : Cursor) : WordMem × Cursor :=
  if cursor.sizeLeft ≥ 8 then
    addLoop (addLane instanceIndex s cursor (loadWord data cursor.curData)) (cursor.past 8)
  else (s, cursor)
  termination_by cursor.sizeLeft
  decreasing_by
    simp only [Cursor.past]
    omega

def addHead (s : WordMem) (offset length : Nat) : WordMem × Cursor :=
  let offsetInLane := offset % 8
  let cursor := Cursor.start offset length
  if cursor.sizeLeft > 0 ∧ offsetInLane ≠ 0 then
    let bytes := bytesInLane offset cursor.sizeLeft
    (addLane instanceIndex s cursor (loadPart data cursor.curData offsetInLane bytes), cursor.past bytes)
  else (s, cursor)

def addTail (s : WordMem × Cursor) : WordMem :=
  if s.2.sizeLeft > 0 then addLane instanceIndex s.1 s.2 (loadPart data s.2.curData 0 s.2.sizeLeft) else s.1

def keccakP1600times2AddBytes (state : Keccakx2State) (offset length : Nat) : Keccakx2State :=
  let head := addHead instanceIndex data state.s offset length
  { state with s := addTail instanceIndex data (addLoop instanceIndex data head.1 head.2) }

theorem addLoopLanes (s : WordMem) (cursor : Cursor) :
    addTail instanceIndex data (addLoop instanceIndex data s cursor) =
      addWholeLanes s instanceIndex data cursor.curData cursor.lanePosition cursor.sizeLeft := by
  obtain ⟨curData, lanePosition, sizeLeft⟩ := cursor
  induction sizeLeft using Nat.strongRecOn generalizing s curData lanePosition with
  | ind sizeLeft ih =>
    rw [addLoop]
    split
    · next whole =>
      have more : sizeLeft ≥ 8 := whole
      have turns : sizeLeft / 8 = (sizeLeft - 8) / 8 + 1 := by omega
      have tail : (sizeLeft - 8) % 8 = sizeLeft % 8 := by omega
      have later := ih (sizeLeft - 8) (by omega)
        (addLane instanceIndex s ⟨curData, lanePosition, sizeLeft⟩ (loadWord data curData)) (curData + 8)
        (lanePosition + 1)
      refine later.trans ?_
      rw [addWholeLanes, addWholeLanes, tail, turns, Loop.upToFirst,
        show curData + 8 + 8 * ((sizeLeft - 8) / 8) = curData + 8 * ((sizeLeft - 8) / 8 + 1) by omega,
        show lanePosition + 1 + (sizeLeft - 8) / 8 = lanePosition + ((sizeLeft - 8) / 8 + 1) by omega]
      have rest : ∀ t, curData + 8 + 8 * t = curData + 8 * (t + 1) ∧ lanePosition + 1 + t = lanePosition + (t + 1) :=
        fun t => by omega
      simp only [rest]
      rfl
    · next part =>
      have small : sizeLeft / 8 = 0 := Nat.div_eq_of_lt (Nat.not_le.mp part)
      have whole : sizeLeft % 8 = sizeLeft := Nat.mod_eq_of_lt (Nat.not_le.mp part)
      rw [addWholeLanes, small, whole]
      rfl

theorem keccakAddBytes (state : Keccakx2State) (offset length : Nat) :
    keccakP1600times2AddBytes instanceIndex data state offset length =
      { state with s := addBytes state.s instanceIndex data 0 offset length } := by
  unfold keccakP1600times2AddBytes
  dsimp only
  rw [addLoopLanes]
  by_cases head : 0 < length ∧ offset % 8 ≠ 0
  · rw [show addHead instanceIndex data state.s offset length = _ from if_pos head,
      show addBytes state.s instanceIndex data 0 offset length = _ from if_pos head]
    rfl
  · rw [show addHead instanceIndex data state.s offset length = _ from if_neg head,
      show addBytes state.s instanceIndex data 0 offset length = _ from if_neg head]
    rfl

end Add

section Extract

variable (state : Keccakx2State)

def lane (cursor : Cursor) : UInt64 := state.s (2 * cursor.lanePosition + instanceIndex)

def extractLoop (out : Mem) (cursor : Cursor) : Mem × Cursor :=
  if cursor.sizeLeft ≥ 8 then
    extractLoop (storeWord out cursor.curData (lane instanceIndex state cursor)) (cursor.past 8)
  else (out, cursor)
  termination_by cursor.sizeLeft
  decreasing_by
    simp only [Cursor.past]
    omega

def extractHead (out : Mem) (offset length : Nat) : Mem × Cursor :=
  let offsetInLane := offset % 8
  let cursor := Cursor.start offset length
  if cursor.sizeLeft > 0 ∧ offsetInLane ≠ 0 then
    let bytes := bytesInLane offset cursor.sizeLeft
    (storePart out cursor.curData (lane instanceIndex state cursor) offsetInLane bytes, cursor.past bytes)
  else (out, cursor)

def extractTail (out : Mem × Cursor) : Mem :=
  if out.2.sizeLeft > 0 then storePart out.1 out.2.curData (lane instanceIndex state out.2) 0 out.2.sizeLeft
  else out.1

def keccakP1600times2ExtractBytes (out : Mem) (offset length : Nat) : Keccakx2State × Mem :=
  let head := extractHead instanceIndex state out offset length
  (state, extractTail instanceIndex state (extractLoop instanceIndex state head.1 head.2))

theorem extractLoopLanes (out : Mem) (cursor : Cursor) :
    extractTail instanceIndex state (extractLoop instanceIndex state out cursor) =
      extractWholeLanes state.s instanceIndex out cursor.curData cursor.lanePosition cursor.sizeLeft := by
  obtain ⟨curData, lanePosition, sizeLeft⟩ := cursor
  induction sizeLeft using Nat.strongRecOn generalizing out curData lanePosition with
  | ind sizeLeft ih =>
    rw [extractLoop]
    split
    · next whole =>
      have more : sizeLeft ≥ 8 := whole
      have turns : sizeLeft / 8 = (sizeLeft - 8) / 8 + 1 := by omega
      have tail : (sizeLeft - 8) % 8 = sizeLeft % 8 := by omega
      have later := ih (sizeLeft - 8) (by omega)
        (storeWord out curData (lane instanceIndex state ⟨curData, lanePosition, sizeLeft⟩)) (curData + 8)
        (lanePosition + 1)
      refine later.trans ?_
      rw [extractWholeLanes, extractWholeLanes, tail, turns, Loop.upToFirst,
        show curData + 8 + 8 * ((sizeLeft - 8) / 8) = curData + 8 * ((sizeLeft - 8) / 8 + 1) by omega,
        show lanePosition + 1 + (sizeLeft - 8) / 8 = lanePosition + ((sizeLeft - 8) / 8 + 1) by omega]
      have rest : ∀ t, curData + 8 + 8 * t = curData + 8 * (t + 1) ∧ lanePosition + 1 + t = lanePosition + (t + 1) :=
        fun t => by omega
      simp only [rest]
      rfl
    · next part =>
      have small : sizeLeft / 8 = 0 := Nat.div_eq_of_lt (Nat.not_le.mp part)
      have whole : sizeLeft % 8 = sizeLeft := Nat.mod_eq_of_lt (Nat.not_le.mp part)
      rw [extractWholeLanes, small, whole]
      rfl

theorem keccakExtractBytes (out : Mem) (offset length : Nat) :
    keccakP1600times2ExtractBytes instanceIndex state out offset length =
      (state, extractBytes state.s instanceIndex out 0 offset length) := by
  unfold keccakP1600times2ExtractBytes
  dsimp only
  rw [extractLoopLanes]
  by_cases head : 0 < length ∧ offset % 8 ≠ 0
  · rw [show extractHead instanceIndex state out offset length = _ from if_pos head,
      show extractBytes state.s instanceIndex out 0 offset length = _ from if_pos head]
    rfl
  · rw [show extractHead instanceIndex state out offset length = _ from if_neg head,
      show extractBytes state.s instanceIndex out 0 offset length = _ from if_neg head]
    rfl

end Extract

/-- Bytes `offset` to `offset + length - 1` of the chosen instance are exchanged for `byte`, and no
other byte of the fifty words. -/
structure BytesChanged (state after : Keccakx2State) (chosen offset length : Nat) (byte : Nat → UInt8) : Prop where
  inside : ∀ k < length, byteAt after.s chosen (offset + k) = byte k
  outside : ∀ i < 2, ∀ j < 200, (i ≠ chosen ∨ j < offset ∨ offset + length ≤ j) → byteAt after.s i j = byteAt state.s i j
  beyond : ∀ w, 50 ≤ w → after.s w = state.s w
  offsetKept : after.offset = state.offset

variable {instanceIndex}

theorem addBytesChanges (chosen : instanceIndex < 2) (data : Mem) (state : Keccakx2State) {offset length : Nat}
    (fits : offset + length ≤ 200) :
    BytesChanged state (keccakP1600times2AddBytes instanceIndex data state offset length) instanceIndex offset length
      fun k => byteAt state.s instanceIndex (offset + k) ^^^ data k := by
  rw [keccakAddBytes]
  constructor
  · intro k inside
    dsimp only
    rw [addBytesByte state.s chosen chosen data, if_pos ⟨rfl, by omega, by omega⟩, Nat.zero_add, Nat.add_sub_cancel_left]
  · intro i small j below outside
    dsimp only
    rw [addBytesByte state.s small chosen data, if_neg (by omega)]
  · intro w out
    -- a word is its eight bytes, and those of a word beyond the state come after byte 200
    have parity : w % 2 < 2 := Nat.mod_lt w (by decide)
    refine Words.wordExt fun k small => ?_
    have word : ∀ s : WordMem, Words.byteOf (s w) k = byteAt s (w % 2) (8 * (w / 2) + k) := by
      intro s
      rw [byteAt, show 2 * ((8 * (w / 2) + k) / 8) + w % 2 = w by omega, show (8 * (w / 2) + k) % 8 = k by omega]
    dsimp only
    rw [word, word, addBytesByte state.s parity chosen data, if_neg (by omega)]
  · rfl

theorem extractBytesWrites (state : Keccakx2State) (out : Mem) (offset length a : Nat) :
    (keccakP1600times2ExtractBytes instanceIndex state out offset length).2 a =
      if a < length then byteAt state.s instanceIndex (offset + a) else out a := by
  rw [keccakExtractBytes]
  dsimp only
  rw [extractBytesByte, Nat.zero_add, Nat.sub_zero]
  simp only [Nat.zero_le, true_and]

theorem bytewiseOnOneInstance {instanceIndex : Nat} (chosen : instanceIndex < 2) (state : Keccakx2State)
    {offset length : Nat} (fits : offset + length ≤ 200) (data out : Mem) :
    BytesChanged state (keccakP1600times2AddBytes instanceIndex data state offset length) instanceIndex offset length
        (fun k => byteAt state.s instanceIndex (offset + k) ^^^ data k) ∧
      (keccakP1600times2ExtractBytes instanceIndex state out offset length).1 = state ∧
      (∀ a, (keccakP1600times2ExtractBytes instanceIndex state out offset length).2 a =
        if a < length then byteAt state.s instanceIndex (offset + a) else out a) ∧
      ((∀ w < 50, state.s w = 0) → ∀ k < length,
        (keccakP1600times2ExtractBytes instanceIndex
          (keccakP1600times2AddBytes instanceIndex data state offset length) out offset length).2 k = data k) := by
  have changed := addBytesChanges chosen data state fits
  refine ⟨changed, rfl, extractBytesWrites state out offset length, fun zero k inside => ?_⟩
  have blank : byteAt state.s instanceIndex (offset + k) = 0 := by
    rw [byteAt, zero _ (by omega), Words.byteOf, UInt64.toNat_zero, Nat.zero_shiftRight]
    rfl
  rw [extractBytesWrites, if_pos inside, changed.inside k inside, blank]
  exact UInt8.zero_xor

theorem bytewiseOnOneInstanceSpan :
    BytesChanged incInit (keccakP1600times2AddBytes 1 (fun a => UInt8.ofNat (a + 1)) incInit 5 20) 1 5 20
        (fun k => byteAt incInit.s 1 (5 + k) ^^^ UInt8.ofNat (k + 1)) ∧
      (keccakP1600times2ExtractBytes 1 incInit (fun _ => 7) 5 20).1 = incInit ∧
      (∀ a, (keccakP1600times2ExtractBytes 1 incInit (fun _ => 7) 5 20).2 a =
        if a < 20 then byteAt incInit.s 1 (5 + a) else 7) ∧
      ((∀ w < 50, incInit.s w = 0) → ∀ k < 20, (keccakP1600times2ExtractBytes 1
        (keccakP1600times2AddBytes 1 (fun a => UInt8.ofNat (a + 1)) incInit 5 20) (fun _ => 7) 5 20).2 k =
          UInt8.ofNat (k + 1)) :=
  bytewiseOnOneInstance (by decide) incInit (by decide) (fun a => UInt8.ofNat (a + 1)) fun _ => 7

end Armor.Keccak.TwoLane
