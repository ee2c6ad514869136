import Armor.Lib.LinTree
import Armor.Lib.Loop
import Armor.Lib.Memory

/-! Authenticating the known leaves of a hashed tree: of every pair with exactly one known
node the other one is sent, last pair first, and a reader that holds the known leaves and
the sent nodes recomputes the value of every known node. -/
namespace Armor.LinTree

variable (t : LinTree) {α : Type _}

abbrev Known (known : Nat → Bool) : Prop := t.Settled (fun _ a b => a || b) known

def mixed (known : Nat → Bool) (l : Nat) : Bool := known l != known (l + 1)

def missing (known : Nat → Bool) (l : Nat) : Nat := if known l = true then l + 1 else l

def pairsFrom (j : Nat) : List Nat :=
  ((List.range (t.size / 2 - j)).reverse.map fun i => 2 * (j + i) + 1)

def sentFrom (known : Nat → Bool) (j : Nat) : List Nat := (t.pairsFrom j).filter (mixed known)

def sent (known : Nat → Bool) : List Nat := t.sentFrom known 0

theorem pairsFromPred {j : Nat} (below : j < t.size / 2) :
    t.pairsFrom j = t.pairsFrom (j + 1) ++ [2 * j + 1] := by
  have count : t.size / 2 - j = (t.size / 2 - (j + 1)) + 1 := by omega
  simp only [pairsFrom, count]
  rw [List.range_succ_eq_map, List.reverse_cons, List.map_append, ← List.map_reverse,
    List.map_map]
  simp only [List.map_cons, List.map_nil, Nat.add_zero]
  congr 1
  apply List.map_congr_left
  intro i _
  simp only [Function.comp_apply, Nat.succ_eq_add_one]
  omega

theorem pairsFromZero : t.pairsFrom 0 = t.pairsDown := by
  simp [pairsFrom, pairsDown]

theorem memPairsFrom {j l : Nat} : l ∈ t.pairsFrom j ↔ l % 2 = 1 ∧ 2 * j < l ∧ l < t.size := by
  simp only [pairsFrom, List.mem_map, List.mem_reverse, List.mem_range]
  constructor
  · rintro ⟨i, below, rfl⟩
    omega
  · rintro ⟨odd, above, inside⟩
    have := t.oddRightInside odd inside
    exact ⟨l / 2 - j, by omega, by omega⟩

theorem sentFromPred (known : Nat → Bool) {j : Nat} (below : j < t.size / 2) :
    t.sentFrom known j = t.sentFrom known (j + 1) ++
      if mixed known (2 * j + 1) = true then [2 * j + 1] else [] := by
  simp only [sentFrom, t.pairsFromPred below, List.filter_append, List.filter_cons, List.filter_nil]

theorem sentPrefix (known : Nat → Bool) {j : Nat} (below : j ≤ t.size / 2) :
    ∃ rest, t.sent known = t.sentFrom known j ++ rest := by
  induction j with
  | zero => exact ⟨[], by rw [sent, List.append_nil]⟩
  | succ j ih =>
    obtain ⟨rest, split⟩ := ih (by omega)
    rw [t.sentFromPred known below, List.append_assoc] at split
    exact ⟨_, split⟩

theorem mixedCongr {f g : Nat → Bool} {l : Nat} (left : f l = g l) (right : f (l + 1) = g (l + 1)) :
    mixed f l = mixed g l := by rw [mixed, left, right, mixed]

theorem missingCongr {f g : Nat → Bool} {l : Nat} (left : f l = g l) : missing f l = missing g l := by
  rw [missing, left, missing]

theorem knownParent {known : Nat → Bool} (settled : t.Known known) {l : Nat} (odd : l % 2 = 1)
    (inside : l < t.size) : known (t.parent l) = (known l || known (l + 1)) := by
  obtain ⟨bound, isInner⟩ := t.parentInner (by omega) inside
  have := settled _ bound isInner
  rwa [t.oddIsLeft odd inside] at this

def Flagged (known : Nat → Bool) (init : Nat → Bool) (j : Nat) (flags : Nat → Bool) : Prop :=
  ∀ n, flags n = if n < t.size ∧ (t.inner n = false ∨ 2 * j < t.left n) then known n else init n

theorem flaggedStart {known init : Nat → Bool} {j : Nat} (last : t.size / 2 ≤ j)
    (leaves : ∀ n < t.size, t.inner n = false → init n = known n) : t.Flagged known init j init := by
  intro n
  split
  · rename_i here
    rcases here.2 with leaf | above
    · exact leaves n here.1 leaf
    · cases isInner : t.inner n with
      | false => exact leaves n here.1 isInner
      | true => have := t.leftBelow here.1 isInner; omega
  · rfl

theorem flaggedPair {known init flags : Nat → Bool} {j : Nat} (inside : 2 * j + 1 < t.size)
    (inv : t.Flagged known init (j + 1) flags) :
    flags (2 * j + 1) = known (2 * j + 1) ∧ flags (2 * j + 1 + 1) = known (2 * j + 1 + 1) := by
  have room := t.oddRightInside (show (2 * j + 1) % 2 = 1 by omega) inside
  constructor
  · rw [inv, if_pos]
    refine ⟨inside, ?_⟩
    cases isInner : t.inner (2 * j + 1) with
    | false => exact .inl rfl
    | true =>
      have := t.leftAbove inside isInner
      have := t.leftOdd inside isInner
      exact .inr (by omega)
  · rw [inv, if_pos]
    refine ⟨room, ?_⟩
    cases isInner : t.inner (2 * j + 1 + 1) with
    | false => exact .inl rfl
    | true =>
      have := t.leftAbove room isInner
      have := t.leftOdd room isInner
      exact .inr (by omega)

theorem flaggedStep {known init flags : Nat → Bool} (settled : t.Known known) {j : Nat}
    (inside : 2 * j + 1 < t.size) (inv : t.Flagged known init (j + 1) flags) :
    t.Flagged known init j
      (Function.update flags (t.parent (2 * j + 1)) (known (2 * j + 1) || known (2 * j + 1 + 1))) := by
  have odd : (2 * j + 1) % 2 = 1 := by omega
  obtain ⟨bound, isInner⟩ := t.parentInner (by omega) inside
  have back := t.oddIsLeft odd inside
  intro n
  by_cases here : n = t.parent (2 * j + 1)
  · rw [here, Function.update_self, if_pos ⟨bound, .inr (by omega)⟩, t.knownParent settled odd inside]
  · rw [Function.update_of_ne here, inv]
    congr 1
    rw [eq_iff_iff]
    refine and_congr_right fun small => or_congr_right' fun leaf => ?_
    have inner : t.inner n = true := by simpa using leaf
    have parity := t.leftOdd small inner
    have differ : t.left n ≠ 2 * j + 1 := fun same => here (by rw [← same, t.parentLeft small inner])
    omega

theorem flaggedEnd {known init flags : Nat → Bool} (inv : t.Flagged known init 0 flags) :
    ∀ n < t.size, flags n = known n := by
  intro n inside
  rw [inv, if_pos]
  refine ⟨inside, ?_⟩
  cases isInner : t.inner n with
  | false => exact .inl rfl
  | true => have := t.leftAbove inside isInner; exact .inr (by omega)

def proofAt {len : Nat} (value : Nat → Block len) (l : Nat) (s : (Nat → Bool) × (Mem × Nat) × List Nat) :
    (Nat → Bool) × (Mem × Nat) × List Nat :=
  (Function.update s.1 (t.parent l) (s.1 l || s.1 (l + 1)),
    if mixed s.1 l = true then (Mem.append (value (missing s.1 l)) s.2.1, s.2.2 ++ [missing s.1 l])
    else s.2)

theorem proofRun {len : Nat} (value : Nat → Block len) {known init : Nat → Bool}
    (settled : t.Known known) (leaves : ∀ n < t.size, t.inner n = false → init n = known n)
    (out : Mem × Nat) :
    (Loop.downFrom (t.size / 2) (fun j => t.proofAt value (2 * j + 1)) (init, out, [])).2 =
      (Mem.appendAll (((t.sent known).map (missing known)).map value) out,
        (t.sent known).map (missing known)) := by
  refine (Loop.downFromInvariant (fun j (s : (Nat → Bool) × (Mem × Nat) × List Nat) =>
    t.Flagged known init j s.1 ∧
    s.2 = (Mem.appendAll (((t.sentFrom known j).map (missing known)).map value) out,
      (t.sentFrom known j).map (missing known))) ?_ ?_).2
  · exact ⟨t.flaggedStart (Nat.le_refl _) leaves, by simp [sentFrom, pairsFrom, Mem.appendAll]⟩
  · rintro j below ⟨flags, written⟩ ⟨inv, same⟩
    dsimp only at inv same
    have inside : 2 * j + 1 < t.size := by omega
    obtain ⟨left, right⟩ := t.flaggedPair inside inv
    refine ⟨?_, ?_⟩
    · simp only [proofAt, left, right]
      exact t.flaggedStep settled inside inv
    · simp only [proofAt, mixedCongr left right, missingCongr left, same]
      rw [t.sentFromPred known below, List.map_append, List.map_append]
      simp only [Mem.appendAll, List.foldl_append]
      cases mixed known (2 * j + 1)
      · simp
      · simp

inductive Source where
  | tree (node : Nat)
  | proof (slot : Nat)
deriving DecidableEq, Repr

structure Half (α : Type _) where
  source : Source
  value : α

structure HashCall (α : Type _) where
  target : Nat
  left : Half α
  right : Half α

def Source.slots : Source → List Nat
  | .tree _ => []
  | .proof slot => [slot]

def HashCall.slots (c : HashCall α) : List Nat := c.left.source.slots ++ c.right.source.slots

structure Recomputing (α : Type _) where
  value : Nat → α
  flags : Nat → Bool
  used : Nat
  calls : List (HashCall α)

section Recompute

variable (comb : Nat → α → α → α) (stored : Nat → α)

def takeHalf (n : Nat) (s : Recomputing α) : Half α × Recomputing α :=
  if s.flags n = true then (⟨.tree n, s.value n⟩, s)
  else (⟨.proof s.used, stored s.used⟩, { s with used := s.used + 1 })

def hashInto (target : Nat) (left right : Half α) (s : Recomputing α) : Recomputing α :=
  { s with
    value := Function.update s.value target (comb target left.value right.value)
    flags := Function.update s.flags target true
    calls := ⟨target, left, right⟩ :: s.calls }

def recomputeAt (l : Nat) (s : Recomputing α) : Recomputing α :=
  if (s.flags l || s.flags (l + 1)) = true then
    let first := takeHalf stored l s
    let second := takeHalf stored (l + 1) first.2
    hashInto comb (t.parent l) first.1 second.1 second.2
  else s

def recompute (init : Recomputing α) : Recomputing α :=
  Loop.downFrom (t.size / 2) (fun j => t.recomputeAt comb stored (2 * j + 1)) init

@[simp] theorem takeHalfValue (n : Nat) (s : Recomputing α) : (takeHalf stored n s).2.value = s.value := by
  simp only [takeHalf]; split <;> rfl

@[simp] theorem takeHalfFlags (n : Nat) (s : Recomputing α) : (takeHalf stored n s).2.flags = s.flags := by
  simp only [takeHalf]; split <;> rfl

@[simp] theorem takeHalfCalls (n : Nat) (s : Recomputing α) : (takeHalf stored n s).2.calls = s.calls := by
  simp only [takeHalf]; split <;> rfl

theorem takeHalfUsed (n : Nat) (s : Recomputing α) :
    (takeHalf stored n s).2.used = s.used + if s.flags n = true then 0 else 1 := by
  simp only [takeHalf]; split <;> rfl

def Half.Sound (value : Nat → α) (n : Nat) (h : Half α) : Prop :=
  match h.source with
  | .tree m => m = n ∧ h.value = value n
  | .proof k => h.value = stored k

theorem takeHalfSound (n : Nat) (s : Recomputing α) :
    Half.Sound stored s.value n (takeHalf stored n s).1 := by
  simp only [takeHalf]; split <;> simp [Half.Sound]

theorem soundCongr {value value' : Nat → α} {n : Nat} {h : Half α} (same : value' n = value n)
    (sound : Half.Sound stored value n h) : Half.Sound stored value' n h := by
  unfold Half.Sound at *
  split <;> simp_all

theorem takeHalfFirst (n : Nat) (s : Recomputing α) :
    (takeHalf stored n s).1.value = if s.flags n = true then s.value n else stored s.used := by
  simp only [takeHalf]; split <;> rfl

theorem takeHalfSlots (n : Nat) (s : Recomputing α) :
    (takeHalf stored n s).1.source.slots = if s.flags n = true then [] else [s.used] := by
  simp only [takeHalf]; split <;> rfl

theorem recomputeSlots {l : Nat} {s : Recomputing α} (needed : (s.flags l || s.flags (l + 1)) = true) :
    (t.recomputeAt comb stored l s).used = s.used + (if mixed s.flags l = true then 1 else 0) ∧
    ∃ c, (t.recomputeAt comb stored l s).calls = c :: s.calls ∧ c.target = t.parent l ∧
      c.slots = (if mixed s.flags l = true then [s.used] else []) ∧
      Half.Sound stored s.value l c.left ∧ Half.Sound stored s.value (l + 1) c.right ∧
      (t.recomputeAt comb stored l s).value =
        Function.update s.value (t.parent l) (comb (t.parent l) c.left.value c.right.value) := by
  simp only [recomputeAt, needed, if_true, hashInto, takeHalfValue, takeHalfCalls, takeHalfUsed,
    takeHalfFlags]
  refine ⟨?_, _, rfl, rfl, ?_, takeHalfSound stored l s, ?_, rfl⟩
  · rcases Bool.eq_false_or_eq_true (s.flags l) with hl | hl <;>
      rcases Bool.eq_false_or_eq_true (s.flags (l + 1)) with hr | hr <;> simp_all [mixed]
  · simp only [HashCall.slots, takeHalfSlots, takeHalfFlags, takeHalfUsed]
    rcases Bool.eq_false_or_eq_true (s.flags l) with hl | hl <;>
      rcases Bool.eq_false_or_eq_true (s.flags (l + 1)) with hr | hr <;> simp_all [mixed]
  · have := takeHalfSound stored (l + 1) (takeHalf stored l s).2
    rwa [takeHalfValue] at this

theorem recomputeFlags {l : Nat} {s : Recomputing α} :
    (t.recomputeAt comb stored l s).flags =
      if (s.flags l || s.flags (l + 1)) = true then Function.update s.flags (t.parent l) true
      else s.flags := by
  simp only [recomputeAt]
  split
  · simp only [hashInto, takeHalfFlags]
  · rfl

structure Recomputed (known : Nat → Bool) (init : Recomputing α) (j : Nat) (s : Recomputing α) :
    Prop where
  flags : t.Flagged known init.flags j s.flags
  used : s.used = (t.sentFrom known j).length
  consumed : s.calls.reverse.flatMap HashCall.slots = List.range s.used
  kept : ∀ n, (n < t.size → t.inner n = true → known n = true → t.left n ≤ 2 * j) →
    s.value n = init.value n
  sound : ∀ c ∈ s.calls, c.target < t.size ∧ t.inner c.target = true ∧ 2 * j < t.left c.target ∧
    s.value c.target = comb c.target c.left.value c.right.value ∧
    Half.Sound stored s.value (t.left c.target) c.left ∧
    Half.Sound stored s.value (t.left c.target + 1) c.right

variable {known : Nat → Bool} {init : Recomputing α}

theorem recomputedStart (leaves : ∀ n < t.size, t.inner n = false → init.flags n = known n)
    (fresh : init.used = 0 ∧ init.calls = []) :
    t.Recomputed comb stored known init (t.size / 2) init where
  flags := t.flaggedStart (Nat.le_refl _) leaves
  used := by simp [fresh.1, sentFrom, pairsFrom]
  consumed := by simp [fresh.1, fresh.2]
  kept n _ := rfl
  sound c member := by simp [fresh.2] at member

theorem recomputedStep (settled : t.Known known)
    (blank : ∀ n < t.size, t.inner n = true → init.flags n = false) {j : Nat} {s : Recomputing α}
    (inside : 2 * j + 1 < t.size) (inv : t.Recomputed comb stored known init (j + 1) s) :
    t.Recomputed comb stored known init j (t.recomputeAt comb stored (2 * j + 1) s) := by
  obtain ⟨flags, used, consumed, kept, sound⟩ := inv
  have odd : (2 * j + 1) % 2 = 1 := by omega
  have room := t.oddRightInside odd inside
  obtain ⟨left, right⟩ := t.flaggedPair inside flags
  obtain ⟨bound, isInner⟩ := t.parentInner (by omega) inside
  have back := t.oddIsLeft odd inside
  have parent := t.knownParent settled odd inside
  have list := t.sentFromPred known (show j < t.size / 2 by omega)
  have next := t.flaggedStep settled inside flags
  have same := mixedCongr left right
  by_cases needed : (s.flags (2 * j + 1) || s.flags (2 * j + 1 + 1)) = true
  · obtain ⟨grow, c, calls, target, slots, leftSound, rightSound, value⟩ :=
      t.recomputeSlots comb stored needed
    have learned : known (t.parent (2 * j + 1)) = true := by rw [parent, ← left, ← right, needed]
    refine ⟨?_, ?_, ?_, fun n small => ?_, fun d member => ?_⟩
    · rw [recomputeFlags, if_pos needed]
      rwa [← left, ← right, needed] at next
    · rw [grow, used, list, List.length_append, same]
      split <;> rfl
    · rw [calls, List.reverse_cons, List.flatMap_append, consumed, grow, List.flatMap_cons, slots,
        List.flatMap_nil, List.append_nil]
      split
      · rw [List.range_succ]
      · simp
    · rw [value, Function.update_of_ne]
      · exact kept n fun h₁ h₂ h₃ => by have := small h₁ h₂ h₃; omega
      · rintro rfl
        have := small bound isInner learned
        omega
    · rw [calls] at member
      rw [value]
      have below := t.parentBelow (by omega) inside
      rcases List.mem_cons.mp member with rfl | old
      · rw [target, back, Function.update_self]
        refine ⟨bound, isInner, by omega, rfl, soundCongr stored ?_ leftSound,
          soundCongr stored ?_ rightSound⟩
        · rw [Function.update_of_ne (by omega)]
        · rw [Function.update_of_ne (by omega)]
      · obtain ⟨hd, di, far, own, dl, dr⟩ := sound d old
        have differ : d.target ≠ t.parent (2 * j + 1) := fun h => by rw [h, back] at far; omega
        rw [Function.update_of_ne differ]
        refine ⟨hd, di, by omega, own, soundCongr stored ?_ dl, soundCongr stored ?_ dr⟩
        · rw [Function.update_of_ne (by omega)]
        · rw [Function.update_of_ne (by omega)]
  · have still : t.recomputeAt comb stored (2 * j + 1) s = s := by rw [recomputeAt, if_neg needed]
    have unneeded : (known (2 * j + 1) || known (2 * j + 1 + 1)) = false := by
      rw [← left, ← right]; simpa using needed
    have none : mixed known (2 * j + 1) = false := by
      have := (Bool.or_eq_false_iff).mp unneeded
      simp [mixed, this.1, this.2]
    simp only [none, Bool.false_eq_true, if_false, List.append_nil] at list
    rw [still]
    refine ⟨?_, by rw [used, list], consumed, fun n small => kept n fun h₁ h₂ h₃ => ?_,
      fun c member => ?_⟩
    · have quiet : s.flags (t.parent (2 * j + 1)) = false := by
        rw [flags, if_neg, blank _ bound isInner]
        rintro ⟨_, leaf | above⟩
        · rw [isInner] at leaf; contradiction
        · omega
      rwa [unneeded, ← quiet, Function.update_eq_self] at next
    · have low := small h₁ h₂ h₃
      omega
    · obtain ⟨hd, di, far, own, dl, dr⟩ := sound c member
      exact ⟨hd, di, by omega, own, dl, dr⟩

theorem recomputeRun (settled : t.Known known)
    (leaves : ∀ n < t.size, t.inner n = false → init.flags n = known n)
    (blank : ∀ n < t.size, t.inner n = true → init.flags n = false)
    (fresh : init.used = 0 ∧ init.calls = []) :
    t.Recomputed comb stored known init 0 (t.recompute comb stored init) := by
  apply Loop.downFromInvariant (fun j s => t.Recomputed comb stored known init j s)
  · exact t.recomputedStart comb stored leaves fresh
  · exact fun j below s inv => t.recomputedStep comb stored settled blank (by omega) inv

def Restores (known : Nat → Bool) (tree : Nat → α) (j : Nat) (s : Recomputing α) : Prop :=
  ∀ n < t.size, known n = true → (t.inner n = false ∨ 2 * j < t.left n) → s.value n = tree n

theorem restoresNext {tree : Nat → α} {j : Nat} {s : Recomputing α} (below : j < t.size / 2)
    (inv : t.Recomputed comb stored known init (j + 1) s)
    (honest : ∀ i, (h : i < (t.sent known).length) →
      stored i = tree (missing known (t.sent known)[i]))
    (isMixed : mixed known (2 * j + 1) = true) :
    stored s.used = tree (missing known (2 * j + 1)) := by
  obtain ⟨rest, split⟩ := t.sentPrefix known (show j ≤ t.size / 2 by omega)
  rw [t.sentFromPred known below, if_pos isMixed, List.append_assoc, List.singleton_append] at split
  have here : s.used < (t.sent known).length := by
    rw [split, List.length_append, List.length_cons, inv.used]; omega
  rw [honest _ here]
  congr 2
  simp only [split, inv.used, List.getElem_append_right (Nat.le_refl _), Nat.sub_self,
    List.getElem_cons_zero]

theorem restoresStep (settled : t.Known known) {tree : Nat → α} (whole : t.Settled comb tree)
    {j : Nat} {s : Recomputing α} (below : j < t.size / 2)
    (inv : t.Recomputed comb stored known init (j + 1) s)
    (honest : ∀ i, (h : i < (t.sent known).length) →
      stored i = tree (missing known (t.sent known)[i]))
    (values : t.Restores known tree (j + 1) s) :
    t.Restores known tree j (t.recomputeAt comb stored (2 * j + 1) s) := by
  have inside : 2 * j + 1 < t.size := by omega
  obtain ⟨left, right⟩ := t.flaggedPair inside inv.flags
  have room := t.oddRightInside (show (2 * j + 1) % 2 = 1 by omega) inside
  obtain ⟨bound, isInner⟩ := t.parentInner (show 0 < 2 * j + 1 by omega) inside
  have back := t.oddIsLeft (show (2 * j + 1) % 2 = 1 by omega) inside
  have above : ∀ m, 2 * j + 1 ≤ m → m < t.size → known m = true → s.value m = tree m := by
    intro m low bound hm
    refine values m bound hm ?_
    cases mInner : t.inner m with
    | false => exact .inl rfl
    | true => have := t.leftAbove bound mInner; have := t.leftOdd bound mInner; exact .inr (by omega)
  have next := t.restoresNext comb stored below inv honest
  intro n small hn side
  by_cases here : n = t.parent (2 * j + 1)
  · have needed : (s.flags (2 * j + 1) || s.flags (2 * j + 1 + 1)) = true := by
      rw [left, right, ← t.knownParent settled (by omega) inside, ← here, hn]
    rw [whole n small (here ▸ isInner), here, back, recomputeAt, if_pos needed]
    simp only [hashInto, Function.update_self, takeHalfFirst, takeHalfValue, takeHalfFlags,
      takeHalfUsed, left, right]
    congr 1
    · split
      · exact above _ (Nat.le_refl _) inside (by assumption)
      · have hr : known (2 * j + 1 + 1) = true := by simp_all
        rw [next (by simp_all [mixed]), missing, if_neg (by assumption)]
    · split
      · exact above _ (by omega) room (by assumption)
      · have hl : known (2 * j + 1) = true := by simp_all
        rw [if_pos hl, Nat.add_zero, next (by simp_all [mixed]), missing, if_pos hl]
  · have kept : (t.recomputeAt comb stored (2 * j + 1) s).value n = s.value n := by
      simp only [recomputeAt]
      split
      · simp only [hashInto, takeHalfValue, Function.update_of_ne here]
      · rfl
    rw [kept]
    refine values n small hn ?_
    rcases side with leaf | far
    · exact .inl leaf
    · cases nInner : t.inner n with
      | false => exact .inl rfl
      | true =>
        have parity := t.leftOdd small nInner
        have differ : t.left n ≠ 2 * j + 1 := fun h => here (by rw [← h, t.parentLeft small nInner])
        exact .inr (by omega)

theorem recomputeValue (settled : t.Known known)
    (leaves : ∀ n < t.size, t.inner n = false → init.flags n = known n)
    (blank : ∀ n < t.size, t.inner n = true → init.flags n = false)
    (fresh : init.used = 0 ∧ init.calls = []) (tree : Nat → α) (whole : t.Settled comb tree)
    (agree : ∀ n < t.size, t.inner n = false → known n = true → init.value n = tree n)
    (honest : ∀ i, (h : i < (t.sent known).length) →
      stored i = tree (missing known (t.sent known)[i])) :
    ∀ n < t.size, known n = true → (t.recompute comb stored init).value n = tree n := by
  have run : t.Recomputed comb stored known init 0 (t.recompute comb stored init) ∧
      t.Restores known tree 0 (t.recompute comb stored init) := by
    apply Loop.downFromInvariant (fun j s =>
      t.Recomputed comb stored known init j s ∧ t.Restores known tree j s)
    · refine ⟨t.recomputedStart comb stored leaves fresh, fun n inside hk side => ?_⟩
      refine agree n inside ?_ hk
      rcases side with leaf | above
      · exact leaf
      · cases isInner : t.inner n with
        | false => rfl
        | true => have := t.leftBelow inside isInner; omega
    · exact fun j below s ⟨inv, values⟩ => ⟨t.recomputedStep comb stored settled blank (by omega) inv,
        t.restoresStep comb stored settled whole below inv honest values⟩
  intro n inside hk
  refine run.2 n inside hk ?_
  cases isInner : t.inner n with
  | false => exact .inl rfl
  | true => have := t.leftAbove inside isInner; exact .inr (by omega)

structure Alike (s s' : Recomputing α) : Prop where
  flags : s.flags = s'.flags
  used : s.used = s'.used
  values : ∀ n, s.flags n = true → s.value n = s'.value n

theorem takeHalfAlike {s s' : Recomputing α} (alike : Alike s s') (n : Nat) :
    (takeHalf stored n s).1.value = (takeHalf stored n s').1.value ∧
      Alike (takeHalf stored n s).2 (takeHalf stored n s').2 := by
  unfold takeHalf
  rw [← alike.flags, ← alike.used]
  split
  · rename_i here
    exact ⟨alike.values n here, alike⟩
  · exact ⟨rfl, ⟨rfl, rfl, alike.values⟩⟩

theorem recomputeAlike {s s' : Recomputing α} (alike : Alike s s') :
    Alike (t.recompute comb stored s) (t.recompute comb stored s') := by
  refine Loop.downFromRelated (fun _ s s' => Alike s s') alike fun j _ s s' alike => ?_
  have first := takeHalfAlike stored alike (2 * j + 1)
  have second := takeHalfAlike stored first.2 (2 * j + 1 + 1)
  unfold recomputeAt
  rw [← alike.flags]
  split
  · refine ⟨?_, second.2.used, fun n known => ?_⟩
    · simp only [hashInto, second.2.flags]
    · simp only [hashInto] at known ⊢
      by_cases here : n = t.parent (2 * j + 1)
      · rw [here, Function.update_self, Function.update_self, first.1, second.1]
      · rw [Function.update_of_ne here] at known ⊢
        rw [Function.update_of_ne here]
        exact second.2.values n known
  · exact alike

theorem recomputeReads (settled : t.Known known)
    (leaves : ∀ n < t.size, t.inner n = false → init.flags n = known n)
    (blank : ∀ n < t.size, t.inner n = true → init.flags n = false)
    (fresh : init.used = 0 ∧ init.calls = []) {stored' : Nat → α}
    (agree : ∀ i < (t.sent known).length, stored i = stored' i) :
    t.recompute comb stored init = t.recompute comb stored' init := by
  refine (Loop.downFromRelated (fun j s s' => s = s' ∧ t.Recomputed comb stored known init j s)
    ⟨rfl, t.recomputedStart comb stored leaves fresh⟩ ?_).1
  rintro j below s _ ⟨rfl, inv⟩
  have inside : 2 * j + 1 < t.size := by omega
  refine ⟨?_, t.recomputedStep comb stored settled blank inside inv⟩
  obtain ⟨left, right⟩ := t.flaggedPair inside inv.flags
  obtain ⟨rest, split⟩ := t.sentPrefix known (show j ≤ t.size / 2 by omega)
  rw [t.sentFromPred known below] at split
  have room : mixed s.flags (2 * j + 1) = true → stored s.used = stored' s.used := by
    intro isMixed
    rw [mixedCongr left right] at isMixed
    refine agree _ ?_
    rw [split, if_pos isMixed, List.length_append, List.length_append, inv.used]
    simp only [List.length_singleton]
    omega
  simp only [recomputeAt, takeHalf]
  rcases Bool.eq_false_or_eq_true (s.flags (2 * j + 1)) with hl | hl <;>
    rcases Bool.eq_false_or_eq_true (s.flags (2 * j + 1 + 1)) with hr | hr <;>
    simp [hl, hr, mixed] at room ⊢
  · rw [room]
  · rw [room]

end Recompute
end Armor.LinTree
