import Armor.Cross.PackFacts

/-! The packed formats are canonical: what the unpacking accepts is the packing of what it returns,
so that an accepted key or response has no second encoding. -/
namespace Armor.Cross

open BitStream (bit bitAt)

theorem paddingOkClear {b : Mem} {inlen used : Nat} (small : used < 8) (ok : paddingOk b inlen used = true) {c : Nat}
    (inside : c < 8) (high : used ≤ c) : (b (inlen - 1)).toNat.testBit c = false := by
  rw [paddingOk, beq_iff_eq] at ok
  have bits := congrArg (fun x : UInt8 => x.toNat.testBit c) ok
  have ones : ((0xFF : UInt8)).toNat.testBit (c - used) = true := by
    have below : c - used < 8 := by omega
    rw [show ((0xFF : UInt8)).toNat = 2 ^ 8 - 1 from rfl, Nat.testBit_two_pow_sub_one, decide_eq_true below]
  rwa [UInt8.toNat_and, Nat.testBit_and, byteShiftLeft _ small inside, decide_eq_true high, Bool.true_and, ones,
    Bool.and_true, UInt8.toNat_zero, Nat.zero_testBit] at bits

section Streamed

variable {w n : Nat} {b : Mem} {value : Nat → Nat}

theorem relaid (read : ∀ a c, a < n → c < w → (value a).testBit c = bit 8 (fun i => (b i).toNat) (a * w + c))
    (positive : 0 < w) (zeros : ∀ a, n ≤ a → value a = 0) {i c : Nat} (low : c < 8)
    (clear : n ≤ (i * 8 + c) / w → (b i).toNat.testBit c = false) :
    bit w value (i * 8 + c) = (b i).toNat.testBit c := by
  by_cases inside : (i * 8 + c) / w < n
  · rw [bit, read _ _ inside (Nat.mod_lt _ positive), Nat.div_add_mod', bitAt _ low]
  · have beyond := Nat.le_of_not_lt inside
    rw [clear beyond]
    exact BitStream.bitZero (zeros _ beyond)

end Streamed

theorem elementsOfFn {α : Type} [Zero α] {n : Nat} (f : Fin n → α) {i : Nat} (inside : i < n) :
    elements (Vector.ofFn f) i = f ⟨i, inside⟩ := by
  rw [elementsAt _ inside, Vector.getElem_ofFn]

theorem packUnpacked7 {n outlen : Nat} (fit : outlen = n / 8 * 7 + n % 8) {b : Block outlen}
    (ok : (genericUnpack7Bit n b).2 = true) : genericPack7Bit outlen (genericUnpack7Bit n b).1 = b := by
  have read : ∀ a, a < n → elements (genericUnpack7Bit n b).1 a = unpacked7 (Mem.ofBlock b) a :=
    fun a inside => elementsOfFn _ inside
  have small : ∀ a, (elements (genericUnpack7Bit n b).1 a).toNat < 2 ^ 7 := by
    intro a
    by_cases inside : a < n
    · rw [read a inside]
      exact unpacked7Small _ a
    · rw [elementsBeyond _ (Nat.le_of_not_lt inside)]
      decide
  ext i inside
  rw [genericPack7Bit, Vector.getElem_ofFn, ← Mem.ofBlockAt b inside]
  refine Nat.eq_of_testBit_eq fun c => ?_
  by_cases low : c < 8
  · rw [packed7Bits small i low]
    refine relaid (n := n) (fun a c bound below => ?_) (by decide)
      (fun a beyond => congrArg UInt8.toNat (elementsBeyond _ beyond)) low fun beyond => ?_
    · rw [read a bound]
      exact unpacked7Bits _ a below
    · have last : i = outlen - 1 := by omega
      have remainder : n % 8 > 0 := by omega
      rw [genericUnpack7Bit] at ok
      dsimp only at ok
      rw [if_pos remainder] at ok
      rw [last]
      exact paddingOkClear (by omega) ok low (by omega)
  · rw [@highBit _ 8 _ (packed7 _ i).toNat_lt (Nat.le_of_not_lt low),
      @highBit _ 8 _ (Mem.ofBlock b i).toNat_lt (Nat.le_of_not_lt low)]

theorem packUnpacked9 {n outlen : Nat} (fit : outlen = n / 8 * 9 + (n % 8 * 9 + 7) / 8) {b : Block outlen}
    (ok : (genericUnpack9Bit n b).2 = true) : genericPack9Bit outlen (genericUnpack9Bit n b).1 = b := by
  have read : ∀ a, a < n → elements (genericUnpack9Bit n b).1 a = unpacked9 (Mem.ofBlock b) a :=
    fun a inside => elementsOfFn _ inside
  have small : ∀ a, (elements (genericUnpack9Bit n b).1 a).toNat < 2 ^ 9 := by
    intro a
    by_cases inside : a < n
    · rw [read a inside]
      exact unpacked9Small _ a
    · rw [elementsBeyond _ (Nat.le_of_not_lt inside)]
      decide
  ext i inside
  rw [genericPack9Bit, Vector.getElem_ofFn, ← Mem.ofBlockAt b inside]
  refine Nat.eq_of_testBit_eq fun c => ?_
  by_cases low : c < 8
  · rw [packed9Bits small i low]
    refine relaid (n := n) (fun a c bound below => ?_) (by decide)
      (fun a beyond => congrArg UInt16.toNat (elementsBeyond _ beyond)) low fun beyond => ?_
    · rw [read a bound]
      exact unpacked9Bits _ a below
    · have remainder : n % 8 > 0 := by omega
      have length : outlen = n / 8 * 9 + (n % 8 + 1) := by omega
      have last : i = outlen - 1 := by omega
      rw [genericUnpack9Bit] at ok
      dsimp only at ok
      rw [if_pos remainder] at ok
      rw [last]
      exact paddingOkClear (by omega) ok low (by omega)
  · rw [@highBit _ 8 _ (packed9 _ i).toNat_lt (Nat.le_of_not_lt low),
      @highBit _ 8 _ (Mem.ofBlock b i).toNat_lt (Nat.le_of_not_lt low)]

theorem unpacked7Range {n outlen : Nat} (b : Block outlen) (i : Fin n) : (genericUnpack7Bit n b).1[i].toNat < 128 := by
  rw [readFin, genericUnpack7Bit, Vector.getElem_ofFn]
  exact unpacked7Small _ _

theorem unpacked9Range {n outlen : Nat} (b : Block outlen) (i : Fin n) : (genericUnpack9Bit n b).1[i].toNat < 512 := by
  rw [readFin, genericUnpack9Bit, Vector.getElem_ofFn]
  exact unpacked9Small _ _

/-- The encodings of one format are in bijection with the vectors of values in range: the padding
check accepts the packings and nothing else. -/
def Canonical {α : Type} {n len : Nat} (inRange : Vector α n → Prop) (pack : Vector α n → Block len)
    (unpack : Block len → Vector α n × Bool) : Prop :=
  ∀ b v, unpack b = (v, true) ↔ inRange v ∧ pack v = b

theorem canonicalOf {α : Type} {n len : Nat} {inRange : Vector α n → Prop} {pack : Vector α n → Block len}
    {unpack : Block len → Vector α n × Bool} (range : ∀ b, inRange (unpack b).1)
    (there : ∀ v, inRange v → unpack (pack v) = (v, true)) (back : ∀ b, (unpack b).2 = true → pack (unpack b).1 = b) :
    Canonical inRange pack unpack := by
  intro b v
  constructor
  · intro unpacked
    have value : (unpack b).1 = v := congrArg Prod.fst unpacked
    rw [← value]
    exact ⟨range b, back b (congrArg Prod.snd unpacked)⟩
  · rintro ⟨inside, packed⟩
    rw [← packed]
    exact there v inside

variable (p : Parameters)

theorem fpVecCanonical : Canonical (fun v : FpVec p.n => ∀ i : Fin p.n, v[i].toNat < 512) (packFpVec p) (unpackFpVec p) :=
  canonicalOf unpacked9Range (fun _ small => unpackFpVecPacked p small) fun _ ok =>
    packUnpacked9 (by rw [Parameters.denselyPackedFpVecSize, fpBits, wholeBytes]) ok

theorem fpSynCanonical : Canonical (fun v : FpVec (p.n - p.k) => ∀ i : Fin (p.n - p.k), v[i].toNat < 512) (packFpSyn p)
    (unpackFpSyn p) :=
  canonicalOf unpacked9Range (fun _ small => unpackFpSynPacked p small) fun _ ok =>
    packUnpacked9 (by rw [Parameters.denselyPackedFpSynSize, fpBits, wholeBytes]) ok

theorem fzRsdpGVecCanonical : Canonical (fun v : FzVec p.m => ∀ i : Fin p.m, v[i].toNat < 128) (packFzRsdpGVec p)
    (unpackFzRsdpGVec p) :=
  canonicalOf unpacked7Range (fun _ small => unpackFzRsdpGVecPacked p small) fun _ ok =>
    packUnpacked7 (by rw [Parameters.denselyPackedFzRsdpGVecSize, fzBits, wholeBytes]; omega) ok

theorem packedFormatsCanonical :
    Canonical (fun v : FpVec p.n => ∀ i : Fin p.n, v[i].toNat < 512) (packFpVec p) (unpackFpVec p) ∧
    Canonical (fun v : FpVec (p.n - p.k) => ∀ i : Fin (p.n - p.k), v[i].toNat < 512) (packFpSyn p) (unpackFpSyn p) ∧
    Canonical (fun v : FzVec p.m => ∀ i : Fin p.m, v[i].toNat < 128) (packFzRsdpGVec p) (unpackFzRsdpGVec p) :=
  ⟨fpVecCanonical p, fpSynCanonical p, fzRsdpGVecCanonical p⟩

end Armor.Cross
