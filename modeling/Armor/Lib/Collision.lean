import Armor.Lib.Sponge

/-! Where two absorbed messages leave a sponge over an injective permutation in one state. Either the
messages are the same, or the states before their last blocks came of different bytes and agree
outside the rate. -/
namespace Armor.Sponge

theorem padWhole {rate : Nat} {message : Bytes} (single : message.length % rate = rate - 1) :
    pad rate message = message ++ [0x9F] := if_pos single

theorem padSplit {rate : Nat} {message : Bytes} (open_ : message.length % rate ≠ rate - 1) :
    pad rate message = message ++ [0x1F] ++ List.replicate (rate - 2 - message.length % rate) 0 ++ [0x80] := if_neg open_

theorem zerosApart {message message' : Bytes} {zeros zeros' : Nat}
    (same : message ++ [0x1F] ++ List.replicate zeros 0 = message' ++ [0x1F] ++ List.replicate zeros' 0) : message = message' := by
  induction zeros generalizing zeros' with
  | zero =>
    cases zeros' with
    | zero =>
      rw [List.replicate_zero, List.append_nil, List.append_nil] at same
      exact (List.append_left_inj _).mp same
    | succ zeros' =>
      rw [List.replicate_zero, List.append_nil, List.replicate_succ', ← List.append_assoc] at same
      have last := (List.append_inj' same rfl).2
      cases last
  | succ zeros ih =>
    cases zeros' with
    | zero =>
      rw [List.replicate_zero, List.append_nil, List.replicate_succ', ← List.append_assoc] at same
      have last := (List.append_inj' same rfl).2
      cases last
    | succ zeros' =>
      rw [List.replicate_succ', List.replicate_succ', ← List.append_assoc, ← List.append_assoc] at same
      exact ih ((List.append_left_inj _).mp same)

theorem padInjective {rate : Nat} : Function.Injective (pad rate) := by
  intro message message' same
  by_cases single : message.length % rate = rate - 1
  · by_cases single' : message'.length % rate = rate - 1
    · rw [padWhole single, padWhole single'] at same
      exact (List.append_left_inj _).mp same
    · rw [padWhole single, padSplit single'] at same
      have last := (List.append_inj' same rfl).2
      cases last
  · by_cases single' : message'.length % rate = rate - 1
    · rw [padSplit single, padWhole single'] at same
      have last := (List.append_inj' same rfl).2
      cases last
    · rw [padSplit single, padSplit single'] at same
      exact zerosApart ((List.append_left_inj _).mp same)

variable {σ : Type} {size : Nat} (m : Bytewise σ size) (f : σ → σ) (rate : Nat)

structure InnerCollision (stream stream' : Mem) (b b' : Nat) : Prop where
  apart : ¬ (b = b' ∧ ∀ i < b * rate, stream i = stream' i)
  inner : ∀ j, rate ≤ j → j < size → m.byte (blocks m f rate stream b) j = m.byte (blocks m f rate stream' b') j

variable {m f rate}

theorem addedBlock (s : σ) (data : Mem) {j : Nat} (below : j < size) :
    m.byte (addBytes m s 0 data rate) j = if j < rate then m.byte s j ^^^ data j else m.byte s j := by
  rw [byteAddBytes _ _ _ _ below]
  simp only [Nat.zero_le, true_and, Nat.zero_add, Nat.sub_zero]

theorem blocksMeet (injective : Function.Injective f) (room : rate ≤ size) {stream stream' : Mem} {b b' : Nat}
    (same : blocks m f rate stream (b + 1) = blocks m f rate stream' (b' + 1)) :
    (b = b' ∧ ∀ i < (b + 1) * rate, stream i = stream' i) ∨ InnerCollision m f rate stream stream' b b' := by
  have added := injective same
  have bytes : ∀ j < size, (if j < rate then m.byte (blocks m f rate stream b) j ^^^ stream (b * rate + j)
      else m.byte (blocks m f rate stream b) j) = if j < rate then m.byte (blocks m f rate stream' b') j ^^^ stream' (b' * rate + j)
        else m.byte (blocks m f rate stream' b') j := fun j below => by
    rw [← addedBlock _ (fun i => stream (b * rate + i)) below, added, addedBlock _ _ below]
  by_cases before : b = b' ∧ ∀ i < b * rate, stream i = stream' i
  · left
    obtain ⟨rfl, prefix_⟩ := before
    refine ⟨rfl, fun i below => ?_⟩
    by_cases early : i < b * rate
    · exact prefix_ i early
    · have inside : i - b * rate < rate := by
        rw [Nat.succ_mul] at below
        omega
      have byte := bytes (i - b * rate) (Nat.lt_of_lt_of_le inside room)
      rw [if_pos inside, if_pos inside, blocksCongr prefix_, Nat.add_sub_cancel' (Nat.le_of_not_lt early)] at byte
      exact (UInt8.xor_right_inj _).mp byte
  · right
    refine ⟨before, fun j capacity below => ?_⟩
    have byte := bytes j below
    rwa [if_neg (Nat.not_lt.mpr capacity), if_neg (Nat.not_lt.mpr capacity)] at byte

theorem absorbedMeet (injective : Function.Injective f) (wide : 1 < rate) (room : rate ≤ size) {message message' : Bytes}
    (same : blocks m f rate (streamOf (pad rate message)) ((pad rate message).length / rate) =
      blocks m f rate (streamOf (pad rate message')) ((pad rate message').length / rate)) :
    message = message' ∨ InnerCollision m f rate (streamOf (pad rate message)) (streamOf (pad rate message'))
      (message.length / rate) (message'.length / rate) := by
  have positive : 0 < rate := Nat.lt_trans Nat.zero_lt_one wide
  have whole : ∀ message : Bytes, (pad rate message).length / rate = message.length / rate + 1 := fun message => by
    rw [padLength wide, Nat.mul_div_cancel _ positive]
  rw [whole, whole] at same
  rcases blocksMeet injective room same with ⟨count, bytes⟩ | collision
  · left
    have lengths : (pad rate message).length = (pad rate message').length := by rw [padLength wide, padLength wide, count]
    refine padInjective (List.ext_getElem lengths fun i inside inside' => ?_)
    have byte := bytes i (by rwa [← padLength wide])
    rwa [streamOf, streamOf, List.getD_eq_getElem _ _ inside, List.getD_eq_getElem _ _ inside'] at byte
  · exact .inr collision

end Armor.Sponge
