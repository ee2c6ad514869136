import Armor.Keccak.Permutation

/-! The two-lane Keccak of `sha3.h` at a vector length of 128 bits. The permutation `_f1600x2`
is a parameter that acts on each of the two interleaved instances. -/
namespace Armor.Keccak.TwoLane

abbrev WordMem := Nat → UInt64

/-- `s[2 * i + j]` is lane `i` of instance `j`. -/
structure Keccakx2State where
  s : WordMem
  offset : Nat

def lanesOf (s : WordMem) (instanceIndex : Nat) : Lanes := Vector.ofFn fun i => s (2 * i.val + instanceIndex)

theorem laneOfWord {w : Nat} (h : w < 50) : w / 2 < 25 := by omega

def statePermutex2 (f : Lanes → Lanes) (s : WordMem) : WordMem := fun w =>
  if h : w < 50 then getElem (f (lanesOf s (w % 2))) (w / 2) (laneOfWord h) else s w

def xorWord (s : WordMem) (w : Nat) (v : UInt64) : WordMem := Function.update s w (s w ^^^ v)

def loadPart (data : Mem) (cur offset length : Nat) : UInt64 :=
  Words.ofBytes fun k => if offset ≤ k ∧ k < offset + length then data (cur + (k - offset)) else 0

def loadWord (data : Mem) (cur : Nat) : UInt64 := Words.ofBytes fun k => data (cur + k)

def storePart (out : Mem) (cur : Nat) (w : UInt64) (offset length : Nat) : Mem := fun a =>
  if cur ≤ a ∧ a < cur + length then Words.byteOf w (offset + (a - cur)) else out a

def storeWord (out : Mem) (cur : Nat) (w : UInt64) : Mem := storePart out cur w 0 8

/-- The whole lanes and the tail of `AddBytes`; its `while` loop turns `sizeLeft / 8` times. -/
def addWholeLanes (s : WordMem) (instanceIndex : Nat) (data : Mem) (curData lanePosition sizeLeft : Nat) : WordMem :=
  let lanes := Loop.upTo (sizeLeft / 8) (fun t s =>
    xorWord s (2 * (lanePosition + t) + instanceIndex) (loadWord data (curData + 8 * t))) s
  if 0 < sizeLeft % 8 then
    xorWord lanes (2 * (lanePosition + sizeLeft / 8) + instanceIndex)
      (loadPart data (curData + 8 * (sizeLeft / 8)) 0 (sizeLeft % 8))
  else lanes

def addBytes (s : WordMem) (instanceIndex : Nat) (data : Mem) (curData offset length : Nat) : WordMem :=
  let lanePosition := offset / 8
  let offsetInLane := offset % 8
  if 0 < length ∧ offsetInLane ≠ 0 then
    let bytesInLane := if 8 - offsetInLane > length then length else 8 - offsetInLane
    addWholeLanes
      (xorWord s (2 * lanePosition + instanceIndex) (loadPart data curData offsetInLane bytesInLane))
      instanceIndex data (curData + bytesInLane) (lanePosition + 1) (length - bytesInLane)
  else addWholeLanes s instanceIndex data curData lanePosition length

def extractWholeLanes (s : WordMem) (instanceIndex : Nat) (out : Mem) (curData lanePosition sizeLeft : Nat) : Mem :=
  let lanes := Loop.upTo (sizeLeft / 8) (fun t out =>
    storeWord out (curData + 8 * t) (s (2 * (lanePosition + t) + instanceIndex))) out
  if 0 < sizeLeft % 8 then
    storePart lanes (curData + 8 * (sizeLeft / 8)) (s (2 * (lanePosition + sizeLeft / 8) + instanceIndex)) 0
      (sizeLeft % 8)
  else lanes

def extractBytes (s : WordMem) (instanceIndex : Nat) (out : Mem) (curData offset length : Nat) : Mem :=
  let lanePosition := offset / 8
  let offsetInLane := offset % 8
  if 0 < length ∧ offsetInLane ≠ 0 then
    let bytesInLane := if 8 - offsetInLane > length then length else 8 - offsetInLane
    extractWholeLanes s instanceIndex
      (storePart out curData (s (2 * lanePosition + instanceIndex)) offsetInLane bytesInLane)
      (curData + bytesInLane) (lanePosition + 1) (length - bytesInLane)
  else extractWholeLanes s instanceIndex out curData lanePosition length

abbrev Vec := UInt64 × UInt64

def svld1 (words : WordMem) (i : Nat) : Vec := (words i, words (i + 1))

def svst1 (words : WordMem) (i : Nat) (v : Vec) : WordMem :=
  Function.update (Function.update words i v.1) (i + 1) v.2

def sveor (v w : Vec) : Vec := (v.1 ^^^ w.1, v.2 ^^^ w.2)

def addPaired (lanes0 lanes1 : WordMem) (i : Nat) (s : WordMem) : WordMem :=
  let in0 := svld1 lanes0 i
  let in1 := svld1 lanes1 i
  let st0 := svld1 s (2 * i)
  let st1 := svld1 s (2 * (i + 1))
  svst1 (svst1 s (2 * i) (sveor st0 in0)) (2 * (i + 1)) (sveor st1 in1)

variable (kind : ShakeKind)

def maxLanes : Nat := kind.rate / 8

def addLanesAll (s : WordMem) (data0 data1 : Mem) (cur laneCount : Nat) : WordMem :=
  let lanes0 : WordMem := fun i => loadWord data0 (cur + 8 * i)
  let lanes1 : WordMem := fun i => loadWord data1 (cur + 8 * i)
  if laneCount = maxLanes kind then
    -- unrolled for 21 lanes whatever the rate
    let pairs := Loop.upTo 10 (fun t => addPaired lanes0 lanes1 (2 * t)) s
    xorWord (xorWord pairs 40 (lanes0 20)) 41 (lanes1 20)
  else
    Loop.upTo laneCount (fun i s => xorWord (xorWord s (2 * i) (lanes0 i)) (2 * i + 1) (lanes1 i)) s

def storeVec (out : Mem) (cur : Nat) (v : Vec) : Mem := storeWord (storeWord out cur v.1) (cur + 8) v.2

def extractPaired (s : WordMem) (cur i : Nat) (out : Mem × Mem) : Mem × Mem :=
  let vec0 := svld1 s (2 * i)
  let vec1 := svld1 s (2 * (i + 1))
  (storeVec out.1 (cur + 8 * i) vec0, storeVec out.2 (cur + 8 * i) vec1)

def extractLanesAll (s : WordMem) (out : Mem × Mem) (cur laneCount : Nat) : Mem × Mem :=
  if laneCount = maxLanes kind then
    let pairs := Loop.upTo 10 (fun t => extractPaired s cur (2 * t)) out
    (storeWord pairs.1 (cur + 8 * 20) (s 40), storeWord pairs.2 (cur + 8 * 20) (s 41))
  else
    Loop.upTo laneCount (fun i out =>
      (storeWord out.1 (cur + 8 * i) (s (2 * i)), storeWord out.2 (cur + 8 * i) (s (2 * i + 1)))) out

def incInit : Keccakx2State := ⟨fun _ => 0, 0⟩

theorem maxLanesPositive : 0 < maxLanes kind := by
  cases kind <;> decide

variable (f : Lanes → Lanes)

def absorbLanes (in0 in1 : Mem) (state : Keccakx2State) (cur lanes : Nat) : Keccakx2State :=
  if 0 < lanes then
    let thisLanes := if lanes ≥ maxLanes kind then maxLanes kind else lanes
    let added := addLanesAll kind state.s in0 in1 cur thisLanes
    let next : Keccakx2State :=
      if thisLanes = maxLanes kind then { state with s := statePermutex2 f added }
      else ⟨added, thisLanes * 8⟩
    absorbLanes in0 in1 next (cur + thisLanes * 8) (lanes - thisLanes)
  else state
  termination_by lanes
  decreasing_by
    have := maxLanesPositive kind
    split <;> omega

def absorbBlocks (in0 in1 : Mem) (state : Keccakx2State) (cur remaining : Nat) : Keccakx2State × Nat × Nat :=
  if remaining + state.offset ≥ kind.rate then
    let chunk := kind.rate - state.offset
    let added := addBytes (addBytes state.s 0 in0 cur state.offset chunk) 1 in1 cur state.offset chunk
    absorbBlocks in0 in1 ⟨statePermutex2 f added, 0⟩ (cur + chunk) (remaining - chunk)
  else (state, cur, remaining)
  termination_by remaining + state.offset
  decreasing_by
    have := kind.rateBounds
    omega

def incAbsorb (state : Keccakx2State) (in0 in1 : Mem) (inLen : Nat) : Keccakx2State :=
  if state.offset = 0 ∧ inLen % 8 = 0 then absorbLanes kind f in0 in1 state 0 (inLen / 8)
  else
    let (state, cur, remaining) := absorbBlocks kind f in0 in1 state 0 inLen
    if 0 < remaining then
      ⟨addBytes (addBytes state.s 0 in0 cur state.offset remaining) 1 in1 cur state.offset remaining,
        state.offset + remaining⟩
    else state

def addBoth (s : WordMem) (pad : UInt8) (offset : Nat) : WordMem :=
  addBytes (addBytes s 0 (fun _ => pad) 0 offset 1) 1 (fun _ => pad) 0 offset 1

def incFinalize (state : Keccakx2State) : Keccakx2State :=
  if state.offset = kind.rate - 1 then ⟨addBoth state.s (0x1F ||| 0x80) state.offset, 0⟩
  else ⟨addBoth (addBoth state.s 0x1F state.offset) 0x80 (kind.rate - 1), 0⟩

def squeezeLanes (state : Keccakx2State) (out : Mem × Mem) (cur lanes : Nat) : Keccakx2State × Mem × Mem :=
  if 0 < lanes then
    let s := statePermutex2 f state.s
    let thisLanes := if lanes ≥ maxLanes kind then maxLanes kind else lanes
    let out := extractLanesAll kind s out cur thisLanes
    let offset := if lanes - thisLanes > 0 then kind.rate - thisLanes * 8 else 0
    squeezeLanes ⟨s, offset⟩ out (cur + thisLanes * 8) (lanes - thisLanes)
  else (state, out)
  termination_by lanes
  decreasing_by
    have := maxLanesPositive kind
    split <;> omega

def squeezeBlocks (state : Keccakx2State) (out : Mem × Mem) (cur remaining : Nat) : Keccakx2State × Mem × Mem :=
  if 0 < remaining then
    let s := statePermutex2 f state.s
    let chunk := if remaining < kind.rate then remaining else kind.rate
    let out := (extractBytes s 0 out.1 cur 0 chunk, extractBytes s 1 out.2 cur 0 chunk)
    squeezeBlocks ⟨s, kind.rate - chunk⟩ out (cur + chunk) (remaining - chunk)
  else (state, out)
  termination_by remaining
  decreasing_by
    have := kind.rateBounds
    split <;> omega

def incSqueeze (state : Keccakx2State) (out : Mem × Mem) (outLen : Nat) : Keccakx2State × Mem × Mem :=
  if state.offset = 0 ∧ outLen % 8 = 0 then squeezeLanes kind f state out 0 (outLen / 8)
  else
    let avail := state.offset
    let chunk := if outLen < avail then outLen else avail
    let out := (extractBytes state.s 0 out.1 0 (kind.rate - state.offset) chunk,
      extractBytes state.s 1 out.2 0 (kind.rate - state.offset) chunk)
    squeezeBlocks kind f { state with offset := state.offset - chunk } out chunk (outLen - chunk)

end Armor.Keccak.TwoLane
