import Armor.Lib.Loop
import Armor.Lib.Memory
import Mathlib.Data.List.GetD

/-! The sponge over a byte-addressed state and an arbitrary permutation, with the FIPS 202 padding
of an extendable-output function. Absorbing a stream piece by piece agrees with absorbing it in
whole blocks. -/
namespace Armor.Sponge

variable {σ : Type} {size : Nat}

/-- A state of `size` bytes, each of which can be read and added to. -/
structure Bytewise (σ : Type) (size : Nat) where
  zero : σ
  byte : σ → Nat → UInt8
  addByte : σ → Nat → UInt8 → σ
  byteZero : ∀ k < size, byte zero k = 0
  byteAdd : ∀ s k b, ∀ j < size, byte (addByte s k b) j = if j = k then byte s j ^^^ b else byte s j
  byteExt : ∀ s s', (∀ k < size, byte s k = byte s' k) → s = s'

variable (m : Bytewise σ size)

def addBytes (s : σ) (pos : Nat) (data : Mem) (len : Nat) : σ :=
  Loop.upTo len (fun i s => m.addByte s (pos + i) (data i)) s

variable (f : σ → σ) (rate : Nat)

def blocks (stream : Mem) : Nat → σ
  | 0 => m.zero
  | b + 1 => f (addBytes m (blocks stream b) 0 (fun i => stream (b * rate + i)) rate)

def taken (stream : Mem) (len : Nat) : σ :=
  addBytes m (blocks m f rate stream (len / rate)) 0 (fun i => stream (len / rate * rate + i)) (len % rate)

/-- `M ‖ 0x1F ‖ 0* ‖ 0x80`, the two pad bytes in one where only one is left. -/
def pad (message : Bytes) : Bytes :=
  if message.length % rate = rate - 1 then message ++ [0x9F]
  else message ++ [0x1F] ++ List.replicate (rate - 2 - message.length % rate) 0 ++ [0x80]

def streamOf (message : Bytes) : Mem := fun i => message.getD i 0

def outByte (s : σ) (i : Nat) : UInt8 := m.byte (f^[i / rate] s) (i % rate)

def shake (message : Bytes) (n : Nat) : Bytes :=
  (List.range n).map (outByte m f rate
    (blocks m f rate (streamOf (pad rate message)) ((pad rate message).length / rate)))

variable {m f rate}

theorem byteAddBytes (s : σ) (pos len : Nat) (data : Mem) {j : Nat} (h : j < size) :
    m.byte (addBytes m s pos data len) j =
      if pos ≤ j ∧ j < pos + len then m.byte s j ^^^ data (j - pos) else m.byte s j := by
  induction len with
  | zero =>
    rw [if_neg (by omega)]
    rfl
  | succ len ih =>
    rw [addBytes, Loop.upToSucc, m.byteAdd _ _ _ _ h]
    by_cases here : j = pos + len
    · have outside : ¬ (pos ≤ j ∧ j < pos + len) := by omega
      rw [if_pos here, if_pos (by omega), ← addBytes, ih, if_neg outside, here, Nat.add_sub_cancel_left]
    · rw [if_neg here, ← addBytes, ih]
      by_cases inside : pos ≤ j ∧ j < pos + len
      · rw [if_pos inside, if_pos (by omega)]
      · rw [if_neg inside, if_neg (by omega)]

theorem addBytesCongr {s : σ} {pos len : Nat} {data data' : Mem} (same : ∀ i < len, data i = data' i) :
    addBytes m s pos data len = addBytes m s pos data' len :=
  Loop.upToCongr (fun i below s => by rw [same i below]) s

theorem addBytesAppend (s : σ) (pos first second : Nat) (data : Mem) :
    addBytes m (addBytes m s pos data first) (pos + first) (fun i => data (first + i)) second =
      addBytes m s pos data (first + second) := by
  rw [addBytes, addBytes, addBytes, Loop.upToAdd]
  simp only [Nat.add_assoc]

theorem takenZero (stream : Mem) : taken m f rate stream 0 = m.zero := by
  rw [taken, Nat.zero_div, Nat.zero_mod]
  rfl

theorem takenFull (positive : 0 < rate) (stream : Mem) (b : Nat) :
    taken m f rate stream (b * rate) = blocks m f rate stream b := by
  rw [taken, Nat.mul_div_cancel b positive, Nat.mul_mod_left]
  rfl

theorem addTaken (stream : Mem) (len c : Nat) :
    addBytes m (taken m f rate stream len) (len % rate) (fun i => stream (len + i)) c =
      addBytes m (blocks m f rate stream (len / rate)) 0 (fun i => stream (len / rate * rate + i))
        (len % rate + c) := by
  have parts := Nat.div_add_mod' len rate
  have joined := addBytesAppend (m := m) (blocks m f rate stream (len / rate)) 0 (len % rate) c
    (fun i => stream (len / rate * rate + i))
  simp only [← Nat.add_assoc, parts, Nat.zero_add] at joined
  exact joined

theorem takenPart (stream : Mem) {len c : Nat} (room : len % rate + c < rate) :
    addBytes m (taken m f rate stream len) (len % rate) (fun i => stream (len + i)) c =
      taken m f rate stream (len + c) := by
  have quotient : (len + c) / rate = len / rate := by
    conv_lhs => rw [← Nat.div_add_mod' len rate, Nat.add_assoc, Nat.add_comm]
    rw [Nat.add_mul_div_right _ _ (by omega), Nat.div_eq_of_lt room, Nat.zero_add]
  have remainder : (len + c) % rate = len % rate + c := by
    conv_lhs => rw [← Nat.div_add_mod' len rate, Nat.add_assoc, Nat.add_comm]
    rw [Nat.add_mul_mod_self_right, Nat.mod_eq_of_lt room]
  rw [addTaken, taken, quotient, remainder]

theorem takenBlock (stream : Mem) {len c : Nat} (fills : len % rate + c = rate) (positive : 0 < rate) :
    f (addBytes m (taken m f rate stream len) (len % rate) (fun i => stream (len + i)) c) =
      taken m f rate stream (len + c) := by
  have total : len + c = (len / rate + 1) * rate := by
    have parts := Nat.div_add_mod' len rate
    rw [Nat.add_mul]
    omega
  rw [addTaken, total, takenFull positive, fills]
  rfl

theorem blocksCongr {stream stream' : Mem} {b : Nat} (same : ∀ i < b * rate, stream i = stream' i) :
    blocks m f rate stream b = blocks m f rate stream' b := by
  induction b with
  | zero => rfl
  | succ b ih =>
    have last : (b + 1) * rate = b * rate + rate := Nat.succ_mul b rate
    rw [blocks, blocks, ih fun i below => same i (by omega)]
    congr 1
    exact addBytesCongr fun i below => same _ (by omega)

theorem padLength (positive : 1 < rate) (message : Bytes) :
    (pad rate message).length = (message.length / rate + 1) * rate := by
  have parts := Nat.div_add_mod' message.length rate
  have below := Nat.mod_lt message.length (show 0 < rate by omega)
  rw [pad, Nat.add_mul]
  split
  · rw [List.length_append, List.length_singleton]
    omega
  · simp only [List.length_append, List.length_replicate, List.length_cons, List.length_nil]
    omega

def padByte (rate open_ k : Nat) : UInt8 :=
  (if k = open_ then 0x1F else 0) ^^^ (if k = rate - 1 then 0x80 else 0)

theorem padAt (positive : 1 < rate) (message : Bytes) {k : Nat} (after : message.length % rate ≤ k)
    (below : k < rate) :
    streamOf (pad rate message) (message.length / rate * rate + k) =
      padByte rate (message.length % rate) k := by
  have parts := Nat.div_add_mod' message.length rate
  have past : message.length ≤ message.length / rate * rate + k := by omega
  rw [streamOf, pad, padByte]
  by_cases single : message.length % rate = rate - 1
  · rw [if_pos single, List.getD_append_right _ _ _ _ past, if_pos (by omega), if_pos (by omega)]
    rw [show message.length / rate * rate + k - message.length = 0 by omega]
    rfl
  · rw [if_neg single, List.append_assoc, List.append_assoc, List.getD_append_right _ _ _ _ past]
    by_cases first : k = message.length % rate
    · rw [if_pos first, if_neg (by omega), show message.length / rate * rate + k - message.length = 0 by omega]
      rfl
    · have later : 1 ≤ message.length / rate * rate + k - message.length := by omega
      rw [if_neg first, List.getD_append_right _ _ _ _ later]
      by_cases last : k = rate - 1
      · rw [if_pos last, List.getD_append_right _ _ _ _ (by
          rw [List.length_replicate, List.length_singleton]; omega), List.length_replicate, List.length_singleton]
        rw [show message.length / rate * rate + k - message.length - 1 - (rate - 2 - message.length % rate) = 0 by
          omega]
        rfl
      · rw [if_neg last, List.getD_append _ _ _ _ (by
          rw [List.length_replicate, List.length_singleton]; omega)]
        rw [List.getD_replicate 0 (by rw [List.length_singleton]; omega)]
        rfl

theorem padBefore (message : Bytes) {i : Nat} (inside : i < message.length) :
    streamOf (pad rate message) i = streamOf message i := by
  rw [streamOf, streamOf, pad]
  split
  · exact List.getD_append _ _ _ _ inside
  · rw [List.append_assoc, List.append_assoc]
    exact List.getD_append _ _ _ _ inside

theorem outByteFirst (s : σ) {i : Nat} (first : i < rate) : outByte m f rate s i = m.byte s i := by
  rw [outByte, Nat.div_eq_of_lt first, Nat.mod_eq_of_lt first]
  rfl

theorem absorbPadded (positive : 1 < rate) (message : Bytes) {s : σ}
    (padded : ∀ j < size, m.byte s j =
      m.byte (taken m f rate (streamOf message) message.length) j ^^^
        (if message.length % rate ≤ j ∧ j < rate then padByte rate (message.length % rate) j else 0)) :
    f s = blocks m f rate (streamOf (pad rate message)) ((pad rate message).length / rate) := by
  have parts := Nat.div_add_mod' message.length rate
  have below := Nat.mod_lt message.length (show 0 < rate by omega)
  rw [padLength positive, Nat.mul_div_cancel _ (by omega), blocks]
  congr 1
  refine m.byteExt _ _ fun j inside => ?_
  rw [padded j inside, taken, byteAddBytes _ _ _ _ inside, byteAddBytes _ _ _ _ inside,
    blocksCongr fun i early => padBefore message (by omega)]
  simp only [Nat.zero_le, true_and, Nat.zero_add, Nat.sub_zero]
  by_cases early : j < message.length % rate
  · rw [if_pos early, if_neg (by omega), if_pos (by omega), padBefore message (by omega), UInt8.xor_zero]
  · rw [if_neg early]
    by_cases open_ : j < rate
    · rw [if_pos ⟨by omega, open_⟩, if_pos open_, padAt positive message (by omega) open_]
    · rw [if_neg (by omega), if_neg open_, UInt8.xor_zero]

end Armor.Sponge
