import Armor.Lib.Memory
import Mathlib.Data.Vector.Basic
import Mathlib.Logic.Equiv.Basic

/-! Objects as the bytes they lie in: a pointer cast to a structure whose fields are byte arrays, which
has no padding. Reading back what was written gives the object, and writing back what was read gives
the bytes, so that every byte of the structure belongs to one field. -/
namespace Armor

namespace Mem

def ofBytes (bytes : Bytes) : Mem := fun a => bytes.getD a 0

def shift (m : Mem) (off : Nat) : Mem := fun a => m (off + a)

theorem shiftNone (m : Mem) : m.shift 0 = m := funext fun a => congrArg m (Nat.zero_add a)

def write (m : Mem) (off : Nat) (bytes : Bytes) : Mem := fun a =>
  if off ≤ a ∧ a < off + bytes.length then bytes.getD (a - off) 0 else m a

def bytes (m : Mem) (off n : Nat) : Bytes := (m.block off n).toList

@[simp] theorem bytesLength (m : Mem) (off n : Nat) : (m.bytes off n).length = n := Vector.length_toList

@[simp] theorem bytesNone (m : Mem) (off : Nat) : m.bytes off 0 = [] := List.length_eq_zero_iff.mp (bytesLength m off 0)

theorem bytesAppend (m : Mem) (off a b : Nat) : m.bytes off (a + b) = m.bytes off a ++ m.bytes (off + a) b :=
  blockAppend m off a b

theorem bytesCongr {m m' : Mem} {off off' n : Nat} (same : ∀ i < n, m (off + i) = m' (off' + i)) :
    m.bytes off n = m'.bytes off' n := by
  refine congrArg Vector.toList (Vector.ext fun i below => ?_)
  rw [blockAt below, blockAt below, same i below]

@[simp] theorem bytesShift (m : Mem) (off at_ n : Nat) : (m.shift off).bytes at_ n = m.bytes (off + at_) n :=
  bytesCongr fun i _ => congrArg m (Nat.add_assoc off at_ i).symm

theorem bytesAt {m m' : Mem} {off off' n : Nat} (same : m.bytes off n = m'.bytes off' n) :
    ∀ i < n, m (off + i) = m' (off' + i) := by
  intro i below
  have blocks : m.block off n = m'.block off' n := Vector.toList_inj.mp same
  have entry := congrArg (fun b : Block n => b[i]) blocks
  simpa only [blockAt below] using entry

theorem ofBytesPrefix (front rest : Bytes) : (ofBytes (front ++ rest)).bytes 0 front.length = front := by
  refine List.ext_getElem (bytesLength _ _ _) fun i below inside => ?_
  have read : (ofBytes (front ++ rest)) i = front[i] := by
    unfold ofBytes
    rw [List.getD_eq_getElem?_getD, List.getElem?_append_left inside, List.getElem?_eq_getElem inside, Option.getD_some]
  simp [bytes, block, read]

theorem ofBytesShift (front rest : Bytes) : (ofBytes (front ++ rest)).shift front.length = ofBytes rest := by
  funext a
  simp [shift, ofBytes, List.getElem?_append_right]

@[simp] theorem writeBytes (m : Mem) (off : Nat) (bytes : Bytes) : (m.write off bytes).bytes off bytes.length = bytes := by
  refine List.ext_getElem (bytesLength _ _ _) fun i below inside => ?_
  simp [Mem.bytes, block, write]

theorem writeOutside (m : Mem) {off : Nat} {bytes : Bytes} {a : Nat} (outside : a < off ∨ off + bytes.length ≤ a) :
    m.write off bytes a = m a := by
  have inside : ¬ (off ≤ a ∧ a < off + bytes.length) := by omega
  exact if_neg inside

theorem writeBytesApart (m : Mem) {off at_ n : Nat} {bytes : Bytes} (apart : at_ + n ≤ off ∨ off + bytes.length ≤ at_) :
    (m.write off bytes).bytes at_ n = m.bytes at_ n :=
  bytesCongr fun _ below => writeOutside m (by omega)

end Mem

structure Image (α : Type) where
  size : Nat
  load : Mem → α
  bytes : α → Bytes
  length : ∀ x, (bytes x).length = size
  loadBytes : ∀ x rest, load (Mem.ofBytes (bytes x ++ rest)) = x
  bytesLoad : ∀ m, bytes (load m) = m.bytes 0 size

namespace Image

variable {α β : Type}

theorem loadCongr (image : Image α) {m m' : Mem} (same : m.bytes 0 image.size = m'.bytes 0 image.size) :
    image.load m = image.load m' := by
  rw [← image.loadBytes (image.load m) [], ← image.loadBytes (image.load m') [], image.bytesLoad, image.bytesLoad, same]

theorem loadWritten (image : Image α) (m : Mem) (off : Nat) (x : α) :
    image.load ((m.write off (image.bytes x)).shift off) = x := by
  have own : image.load (Mem.ofBytes (image.bytes x ++ [])) = x := image.loadBytes x []
  refine (image.loadCongr ?_).trans own
  rw [Mem.bytesShift, Nat.add_zero, ← image.length x, Mem.writeBytes, Mem.ofBytesPrefix]

theorem blockLoaded {n : Nat} (b : Block n) (rest : Bytes) : (Mem.ofBytes (b.toList ++ rest)).block 0 n = b := by
  refine Vector.toList_inj.mp ?_
  have front := Mem.ofBytesPrefix b.toList rest
  rwa [Vector.length_toList] at front

def block (n : Nat) : Image (Block n) :=
  ⟨n, fun m => m.block 0 n, Vector.toList, fun _ => Vector.length_toList, blockLoaded, fun _ => rfl⟩

section Pair

variable (a : Image α) (b : Image β)

theorem pairLength (x : α × β) : (a.bytes x.1 ++ b.bytes x.2).length = a.size + b.size := by
  rw [List.length_append, a.length, b.length]

theorem pairLoaded (x : α × β) (rest : Bytes) :
    (a.load (Mem.ofBytes (a.bytes x.1 ++ b.bytes x.2 ++ rest)),
      b.load ((Mem.ofBytes (a.bytes x.1 ++ b.bytes x.2 ++ rest)).shift a.size)) = x := by
  rw [List.append_assoc, a.loadBytes, ← a.length x.1, Mem.ofBytesShift, b.loadBytes]

theorem pairBytes (m : Mem) : a.bytes (a.load m) ++ b.bytes (b.load (m.shift a.size)) = m.bytes 0 (a.size + b.size) := by
  rw [a.bytesLoad, b.bytesLoad, Mem.bytesShift, Mem.bytesAppend, Nat.add_zero, Nat.zero_add]

def pair : Image (α × β) where
  size := a.size + b.size
  load m := (a.load m, b.load (m.shift a.size))
  bytes x := a.bytes x.1 ++ b.bytes x.2
  length := pairLength a b
  loadBytes := pairLoaded a b
  bytesLoad := pairBytes a b

end Pair

section Array

variable (a : Image α)

theorem entriesLength (entries : List α) : (entries.flatMap a.bytes).length = entries.length * a.size := by
  rw [List.length_flatMap]
  simp only [a.length, List.map_const', List.sum_replicate_nat]

theorem entryLoaded (entries : List α) (rest : Bytes) {i : Nat} (below : i < entries.length) :
    a.load ((Mem.ofBytes (entries.flatMap a.bytes ++ rest)).shift (i * a.size)) = entries[i] := by
  have parts : entries = entries.take i ++ entries[i] :: entries.drop (i + 1) := by
    rw [← List.drop_eq_getElem_cons below, List.take_append_drop]
  have bytes : entries.flatMap a.bytes ++ rest =
      (entries.take i).flatMap a.bytes ++ (a.bytes entries[i] ++ ((entries.drop (i + 1)).flatMap a.bytes ++ rest)) := by
    conv_lhs => rw [parts, List.flatMap_append, List.flatMap_cons, List.append_assoc, List.append_assoc]
  have front : i * a.size = ((entries.take i).flatMap a.bytes).length := by
    rw [entriesLength, List.length_take, Nat.min_eq_left (Nat.le_of_lt below)]
  rw [bytes, front, Mem.ofBytesShift, a.loadBytes]

theorem arrayLength {n : Nat} (v : Vector α n) : (v.toList.flatMap a.bytes).length = n * a.size := by
  rw [entriesLength, Vector.length_toList]

theorem arrayLoaded {n : Nat} (v : Vector α n) (rest : Bytes) :
    (Vector.ofFn fun i : Fin n => a.load ((Mem.ofBytes (v.toList.flatMap a.bytes ++ rest)).shift (i * a.size))) = v := by
  refine Vector.ext fun i below => ?_
  rw [Vector.getElem_ofFn, a.entryLoaded v.toList rest (Nat.lt_of_lt_of_eq below Vector.length_toList.symm)]
  rfl

theorem arrayBytes {n : Nat} (m : Mem) :
    (Vector.ofFn fun i : Fin n => a.load (m.shift (i * a.size))).toList.flatMap a.bytes = m.bytes 0 (n * a.size) := by
  rw [Vector.toList_ofFn]
  induction n with
  | zero => rw [Nat.zero_mul, Mem.bytesNone, List.ofFn_zero, List.flatMap_nil]
  | succ n ih =>
    have last : a.bytes (a.load (m.shift (n * a.size))) = m.bytes (n * a.size) a.size := by
      rw [a.bytesLoad, Mem.bytesShift, Nat.add_zero]
    rw [List.ofFn_succ_last, List.flatMap_append, Nat.succ_mul, Mem.bytesAppend, Nat.zero_add]
    simp only [Fin.val_last, Fin.val_castSucc, List.flatMap_cons, List.flatMap_nil, List.append_nil, last]
    rw [← ih]

def array (n : Nat) : Image (Vector α n) where
  size := n * a.size
  load m := Vector.ofFn fun i => a.load (m.shift (i * a.size))
  bytes v := v.toList.flatMap a.bytes
  length := a.arrayLength
  loadBytes := a.arrayLoaded
  bytesLoad := a.arrayBytes

end Array

section Via

variable (a : Image α) (fields : β ≃ α)

theorem viaLoaded (x : β) (rest : Bytes) : fields.symm (a.load (Mem.ofBytes (a.bytes (fields x) ++ rest))) = x := by
  rw [a.loadBytes, fields.symm_apply_apply]

theorem viaBytes (m : Mem) : a.bytes (fields (fields.symm (a.load m))) = m.bytes 0 a.size := by
  rw [fields.apply_symm_apply, a.bytesLoad]

def via : Image β where
  size := a.size
  load m := fields.symm (a.load m)
  bytes x := a.bytes (fields x)
  length x := a.length (fields x)
  loadBytes := a.viaLoaded fields
  bytesLoad := a.viaBytes fields

end Via

end Image

end Armor
