import Mathlib.Data.List.Basic
import Mathlib.Data.List.OfFn
import Mathlib.Data.Vector.Basic
import Mathlib.Logic.Function.Basic

/-! Byte memory seen from one pointer, and the fixed-length blocks copied in and out of it.
A memory is total: reading or writing past a buffer is representable, so that staying
inside a buffer is a statement about offsets and never an assumption of the model. -/
namespace Armor

instance finIndexed {α : Type} {n : Nat} : GetElem (Vector α n) (Fin n) α fun _ _ => True where
  getElem v i _ := getElem v i.val i.isLt

@[simp] theorem readFin {α : Type} {n : Nat} (v : Vector α n) (i : Fin n) : v[i] = v[i.val] := rfl

abbrev Bytes := List UInt8
abbrev Block (n : Nat) := Vector UInt8 n
abbrev Mem := Nat → UInt8

namespace Block

def zero (n : Nat) : Block n := Vector.replicate n 0

def fst {n : Nat} (b : Block (2 * n)) : Block n := Vector.ofFn fun k => b[k.val]
def snd {n : Nat} (b : Block (2 * n)) : Block n := Vector.ofFn fun k => b[n + k.val]

end Block

namespace Mem

/-- `memcpy(out, m + off, n)` -/
def block (m : Mem) (off n : Nat) : Block n := Vector.ofFn fun k => m (off + k)

/-- `memcpy(m + off, b, n)` -/
def store {n : Nat} (m : Mem) (off : Nat) (b : Block n) : Mem := fun a =>
  if inside : off ≤ a ∧ a < off + n then b[a - off] else m a

def ofBlock {n : Nat} (b : Block n) : Mem := fun a => if inside : a < n then b[a] else 0

def zero : Mem := fun _ => 0

@[simp] theorem blockAt {m : Mem} {off n i : Nat} (h : i < n) : (m.block off n)[i] = m (off + i) := by
  simp [block]

theorem storeInside {n : Nat} (m : Mem) (off : Nat) (b : Block n) (i : Nat) (h : i < n) :
    m.store off b (off + i) = b[i] := by
  have inside : off ≤ off + i ∧ off + i < off + n := ⟨by omega, by omega⟩
  simp [store, h]

theorem storeOutside {n : Nat} (m : Mem) (off : Nat) (b : Block n) (a : Nat)
    (outside : a < off ∨ off + n ≤ a) : m.store off b a = m a := by
  have : ¬ (off ≤ a ∧ a < off + n) := by omega
  simp [store, this]

@[simp] theorem blockStore {n : Nat} (m : Mem) (off : Nat) (b : Block n) :
    (m.store off b).block off n = b := by
  ext i h
  rw [blockAt h, storeInside m off b i h]

theorem blockStoreApart {n : Nat} (m : Mem) (off : Nat) (b : Block n) (at_ k : Nat)
    (apart : at_ + k ≤ off ∨ off + n ≤ at_) : (m.store off b).block at_ k = m.block at_ k := by
  ext i h
  rw [blockAt h, blockAt h, storeOutside m off b _ (by omega)]

@[simp] theorem ofBlockAt {n : Nat} (b : Block n) {a : Nat} (inside : a < n) : ofBlock b a = b[a] := by
  simp [ofBlock, inside]

theorem blockCongr {m m' : Mem} {off n : Nat} (same : ∀ i < n, m (off + i) = m' (off + i)) :
    m.block off n = m'.block off n := by
  ext i h
  rw [blockAt h, blockAt h, same i h]

theorem blockAppend (m : Mem) (off a b : Nat) :
    (m.block off (a + b)).toList = (m.block off a).toList ++ (m.block (off + a) b).toList := by
  apply List.ext_getElem
  · simp
  · intro i h₁ h₂
    simp only [Vector.length_toList] at h₁
    rw [List.getElem_append]
    split
    · simp [block]
    · rename_i far
      simp only [Vector.length_toList, Nat.not_lt] at far
      simp only [block, Vector.getElem_toList, Vector.getElem_ofFn, Vector.length_toList]
      congr 1; omega

def slot (m : Mem) (len i : Nat) : Block len := m.block (i * len) len

def storeSlot {len : Nat} (m : Mem) (i : Nat) (b : Block len) : Mem := m.store (i * len) b

@[simp] theorem slotStoreSame {len : Nat} (m : Mem) (i : Nat) (b : Block len) :
    (m.storeSlot i b).slot len i = b := blockStore m (i * len) b

theorem storeSlotBelow {len : Nat} (m : Mem) (i : Nat) (b : Block len) (a : Nat)
    (outside : a < i * len ∨ (i + 1) * len ≤ a) : m.storeSlot i b a = m a :=
  storeOutside m (i * len) b a (by rwa [Nat.succ_mul] at outside)

theorem slotAt {m : Mem} {len i k : Nat} (h : k < len) : (m.slot len i)[k] = m (i * len + k) :=
  blockAt h

/-- `memcpy(m + count * len, b, len); count++;` -/
def append {len : Nat} (b : Block len) (s : Mem × Nat) : Mem × Nat := (s.1.storeSlot s.2 b, s.2 + 1)

def appendAll {len : Nat} (bs : List (Block len)) (s : Mem × Nat) : Mem × Nat :=
  bs.foldl (fun s b => append b s) s

theorem appendAllCount {len : Nat} (bs : List (Block len)) (s : Mem × Nat) :
    (appendAll bs s).2 = s.2 + bs.length := by
  induction bs generalizing s with
  | nil => rfl
  | cons b bs ih =>
    rw [appendAll, List.foldl_cons, ← appendAll, ih]
    simp only [append, List.length_cons]
    omega

theorem appendAllOutside {len : Nat} (bs : List (Block len)) (s : Mem × Nat) (a : Nat)
    (outside : a < s.2 * len ∨ (s.2 + bs.length) * len ≤ a) : (appendAll bs s).1 a = s.1 a := by
  induction bs generalizing s with
  | nil => rfl
  | cons b bs ih =>
    have grow : (s.2 + 1) * len ≤ (s.2 + (b :: bs).length) * len :=
      Nat.mul_le_mul_right len (by simp only [List.length_cons]; omega)
    have step : s.2 * len ≤ (s.2 + 1) * len := Nat.mul_le_mul_right len (by omega)
    rw [appendAll, List.foldl_cons, ← appendAll, ih]
    · exact storeSlotBelow s.1 s.2 b a (by omega)
    · simp only [append, List.length_cons] at outside ⊢
      rw [show s.2 + 1 + bs.length = s.2 + (bs.length + 1) by omega]
      omega

theorem appendAllSlot {len : Nat} (bs : List (Block len)) (s : Mem × Nat) (i : Nat)
    (inside : i < bs.length) : (appendAll bs s).1.slot len (s.2 + i) = bs[i] := by
  induction bs generalizing s i with
  | nil => simp at inside
  | cons b bs ih =>
    rw [appendAll, List.foldl_cons, ← appendAll]
    cases i with
    | zero =>
      have kept : ((appendAll bs (append b s)).1.slot len s.2) = (append b s).1.slot len s.2 := by
        apply blockCongr
        intro j hj
        apply appendAllOutside
        left
        simp only [append, Nat.succ_mul]
        omega
      rw [Nat.add_zero, kept]
      exact slotStoreSame s.1 s.2 b
    | succ i =>
      have := ih (append b s) i (by simpa using inside)
      simp only [append] at this
      rw [show s.2 + (i + 1) = s.2 + 1 + i by omega]
      exact this

end Mem

structure Slots (α : Type _) where
  cell : Nat → α
  log : List Nat

namespace Slots

variable {α : Type _}

def put (s : Slots α) (n : Nat) (a : α) : Slots α := ⟨Function.update s.cell n a, n :: s.log⟩

@[simp] theorem putCellSame (s : Slots α) (n : Nat) (a : α) : (s.put n a).cell n = a := by
  simp [put]

theorem putCellOther (s : Slots α) {n m : Nat} (a : α) (other : m ≠ n) :
    (s.put n a).cell m = s.cell m := by
  simp [put, other]

@[simp] theorem putLog (s : Slots α) (n : Nat) (a : α) : (s.put n a).log = n :: s.log := rfl

end Slots
end Armor
