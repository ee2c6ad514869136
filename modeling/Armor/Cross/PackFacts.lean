import Armor.Cross.Pack
import Armor.Cross.FpFacts

/-! Packed and unpacked elements are two layouts of one bit stream, so that unpacking undoes packing. -/
namespace Armor.Cross

open BitStream (bit bitAt)

theorem byteShiftRight (x : UInt8) {k : Nat} (small : k < 8) (c : Nat) :
    (x >>> k.toUInt8).toNat.testBit c = x.toNat.testBit (k + c) := by
  have amount : k.toUInt8.toNat % 8 = k := by
    change k % 256 % 8 = k
    omega
  rw [UInt8.toNat_shiftRight, amount, Nat.testBit_shiftRight]

theorem byteShiftLeft (x : UInt8) {k : Nat} (small : k < 8) {c : Nat} (inside : c < 8) :
    (x <<< k.toUInt8).toNat.testBit c = (decide (k ≤ c) && x.toNat.testBit (c - k)) := by
  have amount : k.toUInt8.toNat % 8 = k := by
    change k % 256 % 8 = k
    omega
  rw [UInt8.toNat_shiftLeft, amount, Nat.testBit_mod_two_pow, Nat.testBit_shiftLeft]
  simp [inside]

theorem wordShiftRight (x : UInt16) {k : Nat} (small : k < 16) (c : Nat) :
    (x >>> k.toUInt16).toNat.testBit c = x.toNat.testBit (k + c) := by
  have amount : k.toUInt16.toNat % 16 = k := by
    change k % 65536 % 16 = k
    omega
  rw [UInt16.toNat_shiftRight, amount, Nat.testBit_shiftRight]

theorem wordShiftLeft (x : UInt16) {k : Nat} (small : k < 16) {c : Nat} (inside : c < 16) :
    (x <<< k.toUInt16).toNat.testBit c = (decide (k ≤ c) && x.toNat.testBit (c - k)) := by
  have amount : k.toUInt16.toNat % 16 = k := by
    change k % 65536 % 16 = k
    omega
  rw [UInt16.toNat_shiftLeft, amount, Nat.testBit_mod_two_pow, Nat.testBit_shiftLeft]
  simp [inside]

theorem highBit {x width c : Nat} (small : x < 2 ^ width) (high : width ≤ c) : x.testBit c = false :=
  Nat.testBit_eq_false_of_lt (Nat.lt_of_lt_of_le small (Nat.pow_le_pow_right Nat.two_pos high))

theorem packed7Bits {v : Nat → FzElem} (small : ∀ i, (v i).toNat < 2 ^ 7) (a : Nat) {c : Nat} (inside : c < 8) :
    (packed7 v a).toNat.testBit c = bit 7 (fun i => (v i).toNat) (a * 8 + c) := by
  have below := Nat.mod_lt a (show 0 < 7 by decide)
  have place : a * 8 + c = (a / 7 * 8 + a % 7) * 7 + (a % 7 + c) := by omega
  rw [packed7, UInt8.toNat_or, Nat.testBit_or, byteShiftRight _ (by omega), byteShiftLeft _ (by omega) inside, place]
  by_cases first : a % 7 + c < 7
  · have later : ¬ 7 - a % 7 ≤ c := by omega
    rw [bitAt _ first, decide_eq_false later, Bool.false_and, Bool.or_false]
  · have next : (a / 7 * 8 + a % 7) * 7 + (a % 7 + c) = (a / 7 * 8 + a % 7 + 1) * 7 + (c - (7 - a % 7)) := by omega
    have here : 7 - a % 7 ≤ c := by omega
    rw [next, bitAt _ (by omega), highBit (small _) (by omega), decide_eq_true here, Bool.true_and, Bool.false_or]

theorem packed9Bits {v : Nat → FpElem} (small : ∀ i, (v i).toNat < 2 ^ 9) (a : Nat) {c : Nat} (inside : c < 8) :
    (packed9 v a).toNat.testBit c = bit 9 (fun i => (v i).toNat) (a * 8 + c) := by
  have below := Nat.mod_lt a (show 0 < 9 by decide)
  have narrow : ∀ x : UInt16, x.toUInt8.toNat.testBit c = x.toNat.testBit c := by
    intro x
    rw [UInt16.toNat_toUInt8, Nat.testBit_mod_two_pow, decide_eq_true inside, Bool.true_and]
  rw [packed9]
  split
  · rename_i first
    have place : a * 8 + c = a / 9 * 8 * 9 + c := by omega
    rw [narrow, place, bitAt _ (by omega)]
  · rename_i later
    split
    · rename_i last
      have place : a * 8 + c = (a / 9 * 8 + 7) * 9 + (1 + c) := by omega
      rw [narrow, place, bitAt _ (by omega)]
      exact wordShiftRight _ (by decide) c
    · rename_i middle
      rw [narrow, UInt16.toNat_or, Nat.testBit_or, wordShiftRight _ (by omega), wordShiftLeft _ (by omega) (by omega)]
      by_cases before : c < a % 9
      · have place : a * 8 + c = (a / 9 * 8 + a % 9 - 1) * 9 + (9 - a % 9 + c) := by omega
        rw [place, bitAt _ (by omega), decide_eq_false (by omega), Bool.false_and, Bool.or_false]
      · have place : a * 8 + c = (a / 9 * 8 + a % 9) * 9 + (c - a % 9) := by omega
        rw [place, bitAt _ (by omega), highBit (small _) (by omega), decide_eq_true (by omega), Bool.true_and,
          Bool.false_or]

theorem maskedSeven (x : UInt8) {c : Nat} (inside : c < 7) : (x &&& 0x7F).toNat.testBit c = x.toNat.testBit c := by
  have mask : (x &&& 0x7F).toNat = x.toNat % 2 ^ 7 := Nat.and_two_pow_sub_one_eq_mod x.toNat 7
  rw [mask, Nat.testBit_mod_two_pow, decide_eq_true inside, Bool.true_and]

theorem unpacked7Bits (b : Mem) (a : Nat) {c : Nat} (inside : c < 7) :
    (unpacked7 b a).toNat.testBit c = bit 8 (fun i => (b i).toNat) (a * 7 + c) := by
  have below := Nat.mod_lt a (show 0 < 8 by decide)
  have byte : ∀ i, (b i).toNat < 2 ^ 8 := fun i => (b i).toNat_lt
  rw [unpacked7]
  split
  · rename_i first
    have place : a * 7 + c = a / 8 * 7 * 8 + c := by omega
    rw [place, bitAt _ (by omega), maskedSeven _ inside]
  · rename_i later
    split
    · rename_i last
      have place : a * 7 + c = (a / 8 * 7 + 6) * 8 + (1 + c) := by omega
      rw [place, bitAt _ (by omega)]
      exact byteShiftRight _ (by decide) c
    · rename_i middle
      rw [UInt8.toNat_or, Nat.testBit_or, maskedSeven _ inside, byteShiftRight _ (by omega),
        byteShiftLeft _ (by omega) (by omega)]
      by_cases before : c < a % 8
      · have place : a * 7 + c = (a / 8 * 7 + a % 8 - 1) * 8 + (8 - a % 8 + c) := by omega
        rw [place, bitAt _ (by omega), decide_eq_false (by omega), Bool.false_and, Bool.or_false]
      · have place : a * 7 + c = (a / 8 * 7 + a % 8) * 8 + (c - a % 8) := by omega
        rw [place, bitAt _ (by omega), highBit (byte _) (by omega), decide_eq_true (by omega), Bool.true_and,
          Bool.false_or]

theorem unpacked9Bits (b : Mem) (a : Nat) {c : Nat} (inside : c < 9) :
    (unpacked9 b a).toNat.testBit c = bit 8 (fun i => (b i).toNat) (a * 9 + c) := by
  have below := Nat.mod_lt a (show 0 < 8 by decide)
  have byte : ∀ i, (b i).toUInt16.toNat < 2 ^ 8 := fun i => (b i).toNat_lt
  have masked : ∀ x : UInt16, (x &&& 0x1FF).toNat.testBit c = x.toNat.testBit c := by
    intro x
    have mask : (x &&& 0x1FF).toNat = x.toNat % 2 ^ 9 := Nat.and_two_pow_sub_one_eq_mod x.toNat 9
    rw [mask, Nat.testBit_mod_two_pow, decide_eq_true inside, Bool.true_and]
  rw [unpacked9]
  rw [masked, UInt16.toNat_or, Nat.testBit_or, wordShiftRight _ (by omega), wordShiftLeft _ (by omega) (by omega)]
  by_cases first : a % 8 + c < 8
  · have place : a * 9 + c = (a / 8 * 9 + a % 8) * 8 + (a % 8 + c) := by omega
    rw [place, bitAt _ first, decide_eq_false (by omega), Bool.false_and, Bool.or_false]
    rfl
  · have place : a * 9 + c = (a / 8 * 9 + a % 8 + 1) * 8 + (c - (8 - a % 8)) := by omega
    rw [place, bitAt _ (by omega), highBit (byte _) (by omega), decide_eq_true (by omega), Bool.true_and, Bool.false_or]
    rfl

theorem elementsAt {α : Type} [Zero α] {n : Nat} (v : Vector α n) {i : Nat} (inside : i < n) : elements v i = v[i] :=
  dif_pos inside

theorem paddingOkOf {b : Mem} {inlen used : Nat} (small : used < 8)
    (clear : ∀ c < 8, used ≤ c → (b (inlen - 1)).toNat.testBit c = false) : paddingOk b inlen used = true := by
  rw [paddingOk, beq_iff_eq]
  refine UInt8.toNat_inj.mp (Nat.eq_of_testBit_eq fun c => ?_)
  rw [UInt8.toNat_and, Nat.testBit_and, UInt8.toNat_zero, Nat.zero_testBit]
  by_cases inside : c < 8
  · rw [byteShiftLeft _ small inside]
    by_cases high : used ≤ c
    · rw [clear c inside high, Bool.false_and]
    · rw [decide_eq_false high, Bool.false_and, Bool.and_false]
  · rw [@highBit _ 8 _ (b (inlen - 1)).toNat_lt (Nat.le_of_not_lt inside), Bool.false_and]

theorem unpacked7Small (b : Mem) (a : Nat) : (unpacked7 b a).toNat < 2 ^ 7 := by
  have masked : ∀ x : UInt8, (x &&& 0x7F).toNat < 2 ^ 7 := fun x =>
    Nat.lt_succ_of_le (Nat.and_le_right (n := x.toNat) (m := 127))
  have shifted : ∀ (x : UInt8) {k : Nat}, 0 < k → k < 8 → (x >>> k.toUInt8).toNat < 2 ^ 7 := by
    intro x k positive small
    refine Nat.lt_pow_two_of_testBit _ fun c high => ?_
    rw [byteShiftRight x small]
    exact @highBit _ 8 _ x.toNat_lt (by omega)
  rw [unpacked7]
  split
  · exact masked _
  · split
    · exact shifted _ (by decide) (by decide)
    · rw [UInt8.toNat_or]
      exact Nat.or_lt_two_pow (shifted _ (by omega) (by omega)) (masked _)

theorem unpacked9Small (b : Mem) (a : Nat) : (unpacked9 b a).toNat < 2 ^ 9 :=
  Nat.lt_succ_of_le (Nat.and_le_right (m := 511))

section Streamed

variable {w n outlen : Nat} {b : Mem} {value : Nat → Nat}

theorem streamedValue (streamed : ∀ i c, i < outlen → c < 8 → (b i).toNat.testBit c = bit w value (i * 8 + c))
    {read : Nat → Nat} (bits : ∀ a c, c < w → (read a).testBit c = bit 8 (fun i => (b i).toNat) (a * w + c))
    {a : Nat} (readSmall : read a < 2 ^ w) (small : value a < 2 ^ w) (room : ∀ c < w, (a * w + c) / 8 < outlen) :
    read a = value a := by
  refine BitStream.valuesOf (v := read) (w := value) readSmall small fun c low => ?_
  rw [bitAt _ low, bits a c low, bit, streamed _ _ (room c low) (Nat.mod_lt _ (by decide)), Nat.div_add_mod']

theorem streamedPadding (streamed : ∀ i c, i < outlen → c < 8 → (b i).toNat.testBit c = bit w value (i * 8 + c))
    {used : Nat} (small : used < 8) (some_ : 0 < outlen) (zeros : ∀ a, n ≤ a → value a = 0)
    (beyond : ∀ c, used ≤ c → n ≤ ((outlen - 1) * 8 + c) / w) : paddingOk b outlen used = true := by
  refine paddingOkOf small fun c low high => ?_
  rw [streamed _ _ (Nat.sub_lt some_ Nat.one_pos) low]
  exact BitStream.bitZero (zeros _ (beyond c high))

end Streamed

theorem elementsBeyond {α : Type} [Zero α] {n : Nat} (v : Vector α n) {i : Nat} (beyond : n ≤ i) : elements v i = 0 :=
  dif_neg (Nat.not_lt.mpr beyond)

theorem unpackPacked7 {n outlen : Nat} (fit : outlen = n / 8 * 7 + n % 8) {v : FzVec n}
    (small : ∀ i : Fin n, v[i].toNat < 128) : genericUnpack7Bit n (genericPack7Bit outlen v) = (v, true) := by
  have all : ∀ i, (elements v i).toNat < 2 ^ 7 := by
    intro i
    unfold elements
    split
    · rename_i inside
      exact small ⟨i, inside⟩
    · decide
  have streamed : ∀ i c, i < outlen → c < 8 → (Mem.ofBlock (genericPack7Bit outlen v) i).toNat.testBit c =
      bit 7 (fun i => (elements v i).toNat) (i * 8 + c) := by
    intro i c inside low
    rw [Mem.ofBlockAt _ inside, genericPack7Bit, Vector.getElem_ofFn]
    exact packed7Bits all i low
  rw [genericUnpack7Bit]
  refine Prod.ext ?_ ?_
  · ext a inside
    rw [Vector.getElem_ofFn, ← elementsAt v inside]
    exact streamedValue streamed (fun a _ => unpacked7Bits _ a) (unpacked7Small _ a) (all a) fun c low => by omega
  · dsimp only
    split
    · exact streamedPadding streamed (by omega) (by omega) (fun a beyond => congrArg UInt8.toNat (elementsBeyond v beyond))
        fun c high => by omega
    · rfl

theorem unpackPacked9 {n outlen : Nat} (fit : outlen = n / 8 * 9 + (n % 8 * 9 + 7) / 8) {v : FpVec n}
    (small : ∀ i : Fin n, v[i].toNat < 512) : genericUnpack9Bit n (genericPack9Bit outlen v) = (v, true) := by
  have all : ∀ i, (elements v i).toNat < 2 ^ 9 := by
    intro i
    unfold elements
    split
    · rename_i inside
      exact small ⟨i, inside⟩
    · decide
  have streamed : ∀ i c, i < outlen → c < 8 → (Mem.ofBlock (genericPack9Bit outlen v) i).toNat.testBit c =
      bit 9 (fun i => (elements v i).toNat) (i * 8 + c) := by
    intro i c inside low
    rw [Mem.ofBlockAt _ inside, genericPack9Bit, Vector.getElem_ofFn]
    exact packed9Bits all i low
  rw [genericUnpack9Bit]
  refine Prod.ext ?_ ?_
  · ext a inside
    rw [Vector.getElem_ofFn, ← elementsAt v inside]
    exact streamedValue streamed (fun a _ => unpacked9Bits _ a) (unpacked9Small _ a) (all a) fun c low => by omega
  · dsimp only
    split
    · have length : outlen = n / 8 * 9 + (n % 8 + 1) := by omega
      exact streamedPadding streamed (by omega) (by omega) (fun a beyond => congrArg UInt16.toNat (elementsBeyond v beyond))
        fun c high => by omega
    · rfl

variable (p : Parameters)

theorem fpBits : bitsToRepresent (P - 1) = 9 := by decide

theorem fzBits : bitsToRepresent (Z - 1) = 7 := by decide

theorem wholeBytes (amount : Nat) : roundUp amount 8 / 8 = (amount + 7) / 8 := by
  rw [roundUp]
  omega

theorem unpackFpVecPacked {v : FpVec p.n} (small : ∀ i : Fin p.n, v[i].toNat < 512) :
    unpackFpVec p (packFpVec p v) = (v, true) :=
  unpackPacked9 (by rw [Parameters.denselyPackedFpVecSize, fpBits, wholeBytes]) small

theorem unpackFpSynPacked {v : FpVec (p.n - p.k)} (small : ∀ i : Fin (p.n - p.k), v[i].toNat < 512) :
    unpackFpSyn p (packFpSyn p v) = (v, true) :=
  unpackPacked9 (by rw [Parameters.denselyPackedFpSynSize, fpBits, wholeBytes]) small

theorem unpackFzRsdpGVecPacked {v : FzVec p.m} (small : ∀ i : Fin p.m, v[i].toNat < 128) :
    unpackFzRsdpGVec p (packFzRsdpGVec p v) = (v, true) :=
  unpackPacked7 (by rw [Parameters.denselyPackedFzRsdpGVecSize, fzBits, wholeBytes]; omega) small

end Armor.Cross
