import Armor.Keccak.ShakeAgreement

/-! Squeezing in several calls. A call that starts at a block boundary with whole words takes the
word path, which stores full blocks pair by pair and drops what is left of its last block; every
other call continues the stream byte by byte. -/
namespace Armor.Keccak.TwoLane

variable (kind : ShakeKind)

def WordPath (p n : Nat) : Prop := p % kind.rate = 0 ∧ n % 8 = 0

instance (p n : Nat) : Decidable (WordPath kind p n) := inferInstanceAs (Decidable (_ ∧ _))

def roundUp (p : Nat) : Nat := (p + kind.rate - 1) / kind.rate * kind.rate

def nextPosition (p n : Nat) : Nat := if WordPath kind p n then roundUp kind (p + n) else p + n

def Resumes : List Nat → Prop
  | [] => True
  | n :: rest =>
    if n % kind.rate = 0 then Resumes rest else rest.sum = 0 ∨ n % 8 ≠ 0 ∧ n + rest.sum < kind.rate

def StaysBytewise (p : Nat) : List Nat → Prop
  | [] => True
  | n :: rest => (n = 0 ∨ ¬ WordPath kind p n) ∧ StaysBytewise (p + n) rest

def Continues (lengths : List Nat) : Prop :=
  if lengths.sum % 8 = 0 then Resumes kind lengths else StaysBytewise kind 0 lengths

section Serving

def plainRun (plain : Nat → UInt8) (p n : Nat) : Bytes := (List.range n).map fun a => plain (p + a)

variable (plain wide : Nat → UInt8)

def servedByte (p n a : Nat) : UInt8 :=
  if WordPath kind p n ∧ (a / kind.rate + 1) * kind.rate ≤ n then wide (p + a) else plain (p + a)

def served (p n : Nat) : Bytes := (List.range n).map (servedByte kind plain wide p n)

def servedAll (p : Nat) : List Nat → Bytes
  | [] => []
  | n :: rest => served kind plain wide p n ++ servedAll (nextPosition kind p n) rest

variable {kind} {plain wide}

theorem plainRunAppend (p n m : Nat) : plainRun plain p (n + m) = plainRun plain p n ++ plainRun plain (p + n) m := by
  rw [plainRun, plainRun, plainRun, List.range_add, List.map_append, List.map_map]
  congr 1
  refine List.map_congr_left fun a _ => ?_
  rw [Function.comp_apply, Nat.add_assoc]

theorem servedLength (p n : Nat) : (served kind plain wide p n).length = n := by
  rw [served, List.length_map, List.length_range]

theorem servedAt (p : Nat) {n a : Nat} (inside : a < n) :
    (served kind plain wide p n)[a]? = some (servedByte kind plain wide p n a) := by
  rw [served, List.getElem?_map, List.getElem?_range inside]
  rfl

theorem servedPlain {p n : Nat} (short : ¬ WordPath kind p n ∨ n < kind.rate) :
    served kind plain wide p n = plainRun plain p n := by
  refine List.map_congr_left fun a _ => if_neg fun wide => ?_
  have bounds := kind.rateBounds
  cases short with
  | inl bytewise => exact bytewise wide.1
  | inr few =>
    have block : kind.rate ≤ (a / kind.rate + 1) * kind.rate := Nat.le_mul_of_pos_left _ (Nat.succ_pos _)
    have := wide.2
    omega

theorem roundUpBoundary {p : Nat} (boundary : p % kind.rate = 0) : roundUp kind p = p := by
  cases kind <;> simp only [roundUp, ShakeKind.rate] at boundary ⊢ <;> omega

theorem nextPositionPlain {p n : Nat} (plain : n = 0 ∨ ¬ WordPath kind p n) : nextPosition kind p n = p + n := by
  rw [nextPosition]
  split
  · next word =>
    cases plain with
    | inl none_ =>
      rw [none_]
      exact roundUpBoundary word.1
    | inr bytewise => exact absurd word bytewise
  · rfl

theorem nextPositionWhole {p n : Nat} (boundary : p % kind.rate = 0) (whole : n % kind.rate = 0) :
    nextPosition kind p n = p + n := by
  rw [nextPosition, roundUpBoundary (by rw [Nat.add_mod, boundary, whole, Nat.zero_mod]), ite_self]

theorem nextPositionBoundary {p n : Nat} (word : WordPath kind p n) : nextPosition kind p n % kind.rate = 0 := by
  rw [nextPosition, if_pos word, roundUp, Nat.mul_mod_left]

theorem wholeBlocks {n : Nat} (whole : n % kind.rate = 0) : n % 8 = 0 := by
  cases kind <;> simp only [ShakeKind.rate] at whole <;> omega

theorem servedByteBefore {p n s a : Nat} (boundary : p % kind.rate = 0) (whole : n % kind.rate = 0)
    (words : s % 8 = 0) (inside : a < n) :
    servedByte kind plain wide p (n + s) a = servedByte kind plain wide p n a := by
  have even := wholeBlocks whole
  have block : (a / kind.rate + 1) * kind.rate ≤ n := by
    cases kind <;> simp only [ShakeKind.rate] at whole ⊢ <;> omega
  rw [servedByte, servedByte, if_pos ⟨⟨boundary, by omega⟩, by omega⟩, if_pos ⟨⟨boundary, even⟩, block⟩]

theorem servedByteAfter {p n s : Nat} (boundary : p % kind.rate = 0) (whole : n % kind.rate = 0)
    (words : s % 8 = 0) (a : Nat) :
    servedByte kind plain wide p (n + s) (n + a) = servedByte kind plain wide (p + n) s a := by
  have even := wholeBlocks whole
  have next : (p + n) % kind.rate = 0 := by rw [Nat.add_mod, boundary, whole, Nat.zero_mod]
  have same : ((n + a) / kind.rate + 1) * kind.rate ≤ n + s ↔ (a / kind.rate + 1) * kind.rate ≤ s := by
    cases kind <;> simp only [ShakeKind.rate] at whole ⊢ <;> omega
  have left : WordPath kind p (n + s) := ⟨boundary, by omega⟩
  have right : WordPath kind (p + n) s := ⟨next, words⟩
  simp only [servedByte, left, right, true_and, same, Nat.add_assoc]

theorem servedAppend {p n s : Nat} (boundary : p % kind.rate = 0) (whole : n % kind.rate = 0) (words : s % 8 = 0) :
    served kind plain wide p (n + s) = served kind plain wide p n ++ served kind plain wide (p + n) s := by
  rw [served, served, served, List.range_add, List.map_append, List.map_map]
  congr 1
  · exact List.map_congr_left fun a inside => servedByteBefore boundary whole words (List.mem_range.mp inside)
  · exact List.map_congr_left fun a _ => servedByteAfter boundary whole words a

theorem bytewiseServes {lengths : List Nat} {p : Nat} (stays : StaysBytewise kind p lengths) :
    servedAll kind plain wide p lengths = plainRun plain p lengths.sum := by
  induction lengths generalizing p with
  | nil => rfl
  | cons n rest ih =>
    have few : ¬ WordPath kind p n ∨ n < kind.rate := by
      have bounds := kind.rateBounds
      cases stays.1 with
      | inl none_ => exact Or.inr (by omega)
      | inr bytewise => exact Or.inl bytewise
    rw [servedAll, servedPlain few, nextPositionPlain stays.1, ih stays.2, List.sum_cons, plainRunAppend]

theorem insideBytewise {lengths : List Nat} {p : Nat} (begun : p % kind.rate ≠ 0)
    (inside : p % kind.rate + lengths.sum < kind.rate) : StaysBytewise kind p lengths := by
  induction lengths generalizing p with
  | nil => trivial
  | cons n rest ih =>
    rw [List.sum_cons] at inside
    have next : (p + n) % kind.rate = p % kind.rate + n := by
      rw [← Nat.mod_add_mod, Nat.mod_eq_of_lt (by omega)]
    refine ⟨Or.inr fun word => begun word.1, ih ?_ ?_⟩ <;> rw [next] <;> omega

theorem sumZeroServes {lengths : List Nat} (nothing : lengths.sum = 0) {p : Nat} :
    servedAll kind plain wide p lengths = [] := by
  induction lengths generalizing p with
  | nil => rfl
  | cons n rest ih =>
    rw [List.sum_cons] at nothing
    rw [servedAll, ih (by omega), show n = 0 by omega]
    rfl

theorem resumesServes {lengths : List Nat} {p : Nat} (boundary : p % kind.rate = 0) (words : lengths.sum % 8 = 0)
    (resumes : Resumes kind lengths) :
    servedAll kind plain wide p lengths = served kind plain wide p lengths.sum := by
  induction lengths generalizing p with
  | nil => rfl
  | cons n rest ih =>
    rw [List.sum_cons] at words ⊢
    rw [Resumes] at resumes
    rw [servedAll]
    by_cases whole : n % kind.rate = 0
    · rw [if_pos whole] at resumes
      have even := wholeBlocks whole
      have later : (p + n) % kind.rate = 0 := by rw [Nat.add_mod, boundary, whole, Nat.zero_mod]
      rw [nextPositionWhole boundary whole, ih later (by omega) resumes, servedAppend boundary whole (by omega)]
    · rw [if_neg whole] at resumes
      cases resumes with
      | inl last => rw [sumZeroServes last, List.append_nil, last, Nat.add_zero]
      | inr inside =>
        have bytewise : ¬ WordPath kind p n := fun word => inside.1 word.2
        have begun : (p + n) % kind.rate = n := by
          rw [← Nat.mod_add_mod, boundary, Nat.zero_add, Nat.mod_eq_of_lt (by omega)]
        rw [servedPlain (Or.inl bytewise), nextPositionPlain (Or.inr bytewise),
          bytewiseServes (insideBytewise (by omega) (by omega)), ← plainRunAppend, servedPlain (Or.inr inside.2)]

theorem continuesServes {lengths : List Nat} (continues : Continues kind lengths) :
    servedAll kind plain wide 0 lengths = served kind plain wide 0 lengths.sum := by
  rw [Continues] at continues
  split at continues
  · next words => exact resumesServes (Nat.zero_mod _) words continues
  · next words => rw [bytewiseServes continues, servedPlain (Or.inl fun word => words word.2)]

end Serving

section Telling

structure Telling (kind : ShakeKind) (plain wide : Nat → Nat → UInt8) (mark : UInt8) : Prop where
  boundary : ∀ q, q % kind.rate = 0 → plain 0 q = mark ∧ wide 0 q = mark
  inner : ∀ q, q % 8 = 0 → q % kind.rate ≠ 0 → plain 0 q ≠ mark ∧ wide 0 q ≠ mark
  apart : ∀ q, q % kind.rate = 0 → plain 1 q ≠ wide 1 q

variable {kind} {plain wide : Nat → Nat → UInt8} {mark : UInt8}

theorem firstServed (telling : Telling kind plain wide mark) {lengths : List Nat} (some_ : 0 < lengths.sum) {p : Nat}
    (boundary : p % kind.rate = 0) : (servedAll kind (plain 0) (wide 0) p lengths)[0]? = some mark := by
  induction lengths generalizing p with
  | nil => exact absurd some_ (Nat.lt_irrefl 0)
  | cons n rest ih =>
    rw [servedAll]
    by_cases none_ : n = 0
    · rw [List.sum_cons] at some_
      rw [nextPositionPlain (Or.inl none_), none_, List.getElem?_append_right (Nat.zero_le _), servedLength]
      exact ih (by omega) boundary
    · rw [List.getElem?_append_left (by rw [servedLength]; omega), servedAt _ (by omega), servedByte]
      split
      · exact congrArg some (telling.boundary p boundary).2
      · exact congrArg some (telling.boundary p boundary).1

theorem dropShows (telling : Telling kind plain wide mark) {p n : Nat} {rest : List Nat} (some_ : 0 < rest.sum)
    (word : WordPath kind p n) (open_ : n % kind.rate ≠ 0) (single : Bytes)
    (byte : single[n]? = some (plain 0 (p + n)) ∨ single[n]? = some (wide 0 (p + n))) :
    servedAll kind (plain 0) (wide 0) p (n :: rest) ≠ single := by
  intro same
  have first := firstServed telling some_ (nextPositionBoundary word)
  have words : (p + n) % 8 = 0 := by
    have := wholeBlocks word.1
    have := word.2
    omega
  have inner := telling.inner (p + n) words (by rwa [← Nat.mod_add_mod, word.1, Nat.zero_add])
  have at_ := congrArg (fun l => l[n]?) same
  rw [servedAll, List.getElem?_append_right (by rw [servedLength]), servedLength, Nat.sub_self, first] at at_
  cases byte with
  | inl plain => exact inner.1 (Option.some.inj (at_.trans plain)).symm
  | inr wide => exact inner.2 (Option.some.inj (at_.trans wide)).symm

theorem firstByte {p n : Nat} (some_ : 0 < n) (rest : List Nat) (i : Nat) :
    (servedAll kind (plain i) (wide i) p (n :: rest))[0]? =
      some (servedByte kind (plain i) (wide i) p n 0) := by
  rw [servedAll, List.getElem?_append_left (by rw [servedLength]; omega), servedAt _ some_]

theorem resumesNeeded (telling : Telling kind plain wide mark) {lengths : List Nat} {p : Nat}
    (boundary : p % kind.rate = 0) (words : lengths.sum % 8 = 0)
    (same : ∀ i < 2, servedAll kind (plain i) (wide i) p lengths = served kind (plain i) (wide i) p lengths.sum) :
    Resumes kind lengths := by
  induction lengths generalizing p with
  | nil => trivial
  | cons n rest ih =>
    rw [List.sum_cons] at words
    simp only [List.sum_cons] at same
    rw [Resumes]
    by_cases whole : n % kind.rate = 0
    · rw [if_pos whole]
      have even := wholeBlocks whole
      have later : (p + n) % kind.rate = 0 := by rw [Nat.add_mod, boundary, whole, Nat.zero_mod]
      refine ih later (by omega) fun i small => ?_
      have both := same i small
      rw [servedAll, nextPositionWhole boundary whole, servedAppend boundary whole (by omega)] at both
      exact List.append_cancel_left both
    · rw [if_neg whole]
      have some_ : 0 < n := Nat.pos_of_ne_zero fun none_ => whole (by rw [none_, Nat.zero_mod])
      by_contra bad
      obtain ⟨more, outside⟩ := not_or.mp bad
      have total : WordPath kind p (n + rest.sum) := ⟨boundary, words⟩
      by_cases even : n % 8 = 0
      · refine dropShows telling (Nat.pos_of_ne_zero more) ⟨boundary, even⟩ whole _ ?_ (same 0 (by decide))
        rw [servedAt _ (by omega), servedByte]
        split
        · exact Or.inr rfl
        · exact Or.inl rfl
      · have full : kind.rate ≤ n + rest.sum := by
          by_contra few
          exact outside ⟨even, by omega⟩
        have at_ := congrArg (fun l => l[0]?) (same 1 (by decide))
        rw [firstByte some_, servedAt _ (by omega), servedByte, servedByte, if_neg fun word => even word.1.2,
          if_pos ⟨total, by rw [Nat.zero_div, Nat.zero_add, Nat.one_mul]; exact full⟩] at at_
        exact telling.apart p boundary (Option.some.inj at_)

theorem bytewiseNeeded (telling : Telling kind plain wide mark) {lengths : List Nat} {p : Nat}
    (odd : (p + lengths.sum) % 8 ≠ 0)
    (same : ∀ i < 2, servedAll kind (plain i) (wide i) p lengths = plainRun (plain i) p lengths.sum) :
    StaysBytewise kind p lengths := by
  induction lengths generalizing p with
  | nil => trivial
  | cons n rest ih =>
    rw [List.sum_cons] at odd
    simp only [List.sum_cons] at same
    have bounds := kind.rateBounds
    have bytewise : n = 0 ∨ ¬ WordPath kind p n := by
      by_contra bad
      obtain ⟨some_, word⟩ := not_or.mp bad
      have word := not_not.mp word
      have runAt : ∀ i a, a < n + rest.sum →
          (plainRun (plain i) p (n + rest.sum))[a]? = some (plain i (p + a)) := fun i a inside => by
        rw [plainRun, List.getElem?_map, List.getElem?_range inside]
        rfl
      by_cases full : kind.rate ≤ n
      · have at_ := congrArg (fun l => l[0]?) (same 1 (by decide))
        rw [firstByte (by omega), runAt 1 0 (by omega), servedByte,
          if_pos ⟨word, by rw [Nat.zero_div, Nat.zero_add, Nat.one_mul]; exact full⟩] at at_
        exact telling.apart p word.1 (Option.some.inj at_).symm
      · have words := wholeBlocks word.1
        have even := word.2
        have more : 0 < rest.sum := by omega
        refine dropShows telling more word (by rw [Nat.mod_eq_of_lt (by omega)]; exact some_) _ ?_ (same 0 (by decide))
        exact Or.inl (runAt 0 n (by omega))
    have few : ¬ WordPath kind p n ∨ n < kind.rate := by
      cases bytewise with
      | inl none_ => exact Or.inr (by omega)
      | inr bytewise => exact Or.inl bytewise
    refine ⟨bytewise, ih (by rwa [Nat.add_assoc]) fun i small => ?_⟩
    have both := same i small
    rw [servedAll, servedPlain few, nextPositionPlain bytewise, plainRunAppend] at both
    exact List.append_cancel_left both

theorem continuesNeeded (telling : Telling kind plain wide mark) {lengths : List Nat}
    (same : ∀ i < 2, servedAll kind (plain i) (wide i) 0 lengths = served kind (plain i) (wide i) 0 lengths.sum) :
    Continues kind lengths := by
  rw [Continues]
  split
  · next words => exact resumesNeeded telling (Nat.zero_mod _) words same
  · next words =>
    refine bytewiseNeeded telling (by rwa [Nat.zero_add]) fun i small => ?_
    rw [same i small, servedPlain (Or.inl fun word => words word.2)]

end Telling

end Armor.Keccak.TwoLane
