import Armor.Lib.Loop
import Armor.Lib.Memory
import Mathlib.Data.Vector.Basic
import Mathlib.Logic.Function.Basic

/-! Two ways of batching work: the columns of a vector in blocks of lanes, and jobs queued
until a fixed number can run at once. Both leave what the work done one by one leaves. -/
namespace Armor.Batch

section Lanes

variable {α : Type _}

/-- `for (j = 0; j < n; j += vl)` over blocks of `vl` lanes, the lanes past `n` switched off. -/
def lanes (vl n : Nat) (column : Fin n → α) (res : Vector α n) : Vector α n :=
  Loop.upTo ((n + vl - 1) / vl) (fun block => Loop.upTo vl fun lane res =>
    if active : block * vl + lane < n then res.set (block * vl + lane) (column ⟨_, active⟩) else res) res

theorem lanesAll {vl n : Nat} (positive : 0 < vl) (column : Fin n → α) (res : Vector α n) :
    lanes vl n column res = Vector.ofFn column := by
  have blocks : n ≤ (n + vl - 1) / vl * vl := by
    have split := Nat.div_add_mod (n + vl - 1) vl
    have rest := Nat.mod_lt (n + vl - 1) positive
    rw [Nat.mul_comm] at split
    omega
  have written : ∀ i (h : i < n), i < (n + vl - 1) / vl * vl →
      (lanes vl n column res)[i] = column ⟨i, h⟩ := by
    rw [lanes, ← Loop.upToMul _ _ fun i (res : Vector α n) =>
      if active : i < n then res.set i (column ⟨i, active⟩) else res]
    refine Loop.upToInvariant (fun count (out : Vector α n) => ∀ i (h : i < n), i < count → out[i] = column ⟨i, h⟩)
      (fun i h low => absurd low (by omega)) fun count _ out here i h below => ?_
    by_cases active : count < n
    · rw [dif_pos active, Vector.getElem_set]
      by_cases at_ : count = i
      · simp only [at_, if_true]
      · rw [if_neg at_]
        exact here i h (by omega)
    · rw [dif_neg active]
      exact here i h (by omega)
  ext i h
  rw [written i h (by omega), Vector.getElem_ofFn]

def lanesInto (vl n : Nat) (column : Fin n → α) (res : Slots α) : Slots α :=
  Loop.upTo ((n + vl - 1) / vl) (fun block => Loop.upTo vl fun lane res =>
    if active : block * vl + lane < n then res.put (block * vl + lane) (column ⟨_, active⟩) else res) res

theorem lanesIntoWrites {vl n : Nat} (positive : 0 < vl) (column : Fin n → α) (res : Slots α) :
    (∃ fresh, (lanesInto vl n column res).log = fresh ++ res.log ∧ ∀ a ∈ fresh, a < n) ∧
      (∀ a, n ≤ a → (lanesInto vl n column res).cell a = res.cell a) ∧
      ∀ j : Fin n, (lanesInto vl n column res).cell j = column j := by
  have blocks : n ≤ (n + vl - 1) / vl * vl := by
    have split := Nat.div_add_mod (n + vl - 1) vl
    have rest := Nat.mod_lt (n + vl - 1) positive
    rw [Nat.mul_comm] at split
    omega
  have run : (∃ fresh, (lanesInto vl n column res).log = fresh ++ res.log ∧ ∀ a ∈ fresh, a < n) ∧
      (∀ a, n ≤ a → (lanesInto vl n column res).cell a = res.cell a) ∧
      ∀ j : Fin n, j.val < (n + vl - 1) / vl * vl → (lanesInto vl n column res).cell j = column j := by
    rw [lanesInto, ← Loop.upToMul _ _ fun i (res : Slots α) =>
      if active : i < n then res.put i (column ⟨i, active⟩) else res]
    refine Loop.upToInvariant (fun count (out : Slots α) =>
      (∃ fresh, out.log = fresh ++ res.log ∧ ∀ a ∈ fresh, a < n) ∧ (∀ a, n ≤ a → out.cell a = res.cell a) ∧
        ∀ j : Fin n, j.val < count → out.cell j = column j)
      ⟨⟨[], rfl, nofun⟩, fun _ _ => rfl, fun j low => absurd low (Nat.not_lt_zero _)⟩ fun count _ out here => ?_
    obtain ⟨⟨fresh, log, small⟩, kept, written⟩ := here
    by_cases active : count < n
    · rw [dif_pos active]
      refine ⟨⟨count :: fresh, congrArg (count :: ·) log, fun a member => ?_⟩, fun a beyond => ?_, fun j below => ?_⟩
      · cases member with
        | head => exact active
        | tail _ member => exact small a member
      · rw [Slots.putCellOther _ _ (by omega)]
        exact kept a beyond
      · by_cases at_ : j.val = count
        · have same : j = ⟨count, active⟩ := Fin.ext at_
          rw [same]
          exact Slots.putCellSame _ _ _
        · rw [Slots.putCellOther _ _ at_]
          exact written j (by omega)
    · rw [dif_neg active]
      exact ⟨⟨fresh, log, small⟩, kept, fun j below => written j (by omega)⟩
  exact ⟨run.1, run.2.1, fun j => run.2.2 j (by omega)⟩

end Lanes

section Queue

variable {ι σ : Type _}

structure Queue (ι : Type _) where
  count : Nat
  slot : Nat → ι

def Queue.push (q : Queue ι) (a : ι) : Queue ι := ⟨q.count + 1, Function.update q.slot q.count a⟩

def Queue.reset (q : Queue ι) : Queue ι := { q with count := 0 }

def settle (job : ι → σ → σ) (q : Queue ι) (s : σ) : σ := Loop.upTo q.count (fun k => job (q.slot k)) s

theorem settleEmpty (job : ι → σ → σ) {q : Queue ι} (empty : q.count = 0) (s : σ) : settle job q s = s := by
  rw [settle, empty, Loop.upToZero]

theorem settlePush (job : ι → σ → σ) (q : Queue ι) (a : ι) (s : σ) :
    settle job (q.push a) s = job a (settle job q s) := by
  simp only [settle, Queue.push]
  rw [Loop.upToSucc, Function.update_self,
    Loop.upToCongr fun k below t => by rw [Function.update_of_ne (by omega)]]

theorem settleOne (job : ι → σ → σ) {q : Queue ι} (one : q.count = 1) (s : σ) :
    settle job q s = job (q.slot 0) s := by
  rw [settle, one, Loop.upToSucc, Loop.upToZero]

theorem settleTwo (job : ι → σ → σ) {q : Queue ι} (two : q.count = 2) (s : σ) :
    settle job q s = job (q.slot 1) (job (q.slot 0) s) := by
  rw [settle, two, Loop.upToSucc, Loop.upToSucc, Loop.upToZero]

def flushWhen (run : Queue ι → σ → σ) (capacity : Nat) (last : Bool) (s : Queue ι × σ) : Queue ι × σ :=
  if s.1.count = capacity ∨ last = true then (s.1.reset, run s.1 s.2) else s

variable {run : Queue ι → σ → σ} {job : ι → σ → σ} {capacity : Nat}

theorem flushSettles (runs : ∀ q : Queue ι, q.count ≤ capacity → ∀ s, run q s = settle job q s)
    {s : Queue ι × σ} (fits : s.1.count ≤ capacity) (last : Bool) :
    settle job (flushWhen run capacity last s).1 (flushWhen run capacity last s).2 = settle job s.1 s.2 := by
  unfold flushWhen
  split
  · rw [settleEmpty job rfl]
    exact runs s.1 fits s.2
  · rfl

theorem flushRoom {s : Queue ι × σ} (positive : 0 < capacity) (fits : s.1.count ≤ capacity) (last : Bool) :
    (flushWhen run capacity last s).1.count < capacity := by
  unfold flushWhen
  split
  · exact positive
  · rename_i kept
    have below : s.1.count ≠ capacity := fun full => kept (.inl full)
    omega

theorem flushLast (s : Queue ι × σ) : (flushWhen run capacity true s).1.count = 0 := by
  unfold flushWhen
  rw [if_pos (.inr rfl)]
  rfl

theorem queuedRun (positive : 0 < capacity) (runs : ∀ q : Queue ι, q.count ≤ capacity → ∀ s, run q s = settle job q s)
    (n : Nat) (jobs : Nat → ι) (slot : Nat → ι) (s : σ) :
    (Loop.upTo n (fun i s => flushWhen run capacity (decide (i = n - 1)) (s.1.push (jobs i), s.2)) (⟨0, slot⟩, s)).2 =
      Loop.upTo n (fun i => job (jobs i)) s := by
  have start : settle job (⟨0, slot⟩ : Queue ι) s = s := settleEmpty job rfl s
  have all := @Loop.upToInvariant (Queue ι × σ) n
    (fun i s => flushWhen run capacity (decide (i = n - 1)) (s.1.push (jobs i), s.2)) (⟨0, slot⟩, s)
    (fun i t => settle job t.1 t.2 = Loop.upTo i (fun i => job (jobs i)) s ∧ t.1.count < capacity ∧
      (i = n → t.1.count = 0)) ⟨start, positive, fun _ => rfl⟩ fun i below t ⟨here, room, _⟩ => ?_
  · rw [← all.1, settleEmpty job (all.2.2 rfl)]
  · have fits : (t.1.push (jobs i)).count ≤ capacity := room
    refine ⟨?_, flushRoom positive fits _, fun last => ?_⟩
    · rw [flushSettles runs fits, settlePush, here, Loop.upToSucc]
    · rw [decide_eq_true (show i = n - 1 by omega)]
      exact flushLast _

end Queue

section Buffer

variable {β γ σ : Type _}

structure Buffer (β : Type _) where
  count : Nat
  slot : Nat → β
  used : List Nat

namespace Buffer

def fill (write : β → β) (q : Buffer β) : Buffer β :=
  ⟨q.count + 1, Function.update q.slot q.count (write (q.slot q.count)), q.count :: q.used⟩

def jobs (read : β → γ) (q : Buffer β) : List γ := (List.range q.count).map fun k => read (q.slot k)

def drainWhen (run : Buffer β → σ → σ) (last : Bool) (s : Buffer β × σ) : Buffer β × σ :=
  if s.1.count = 2 ∨ last = true then (⟨0, s.1.slot, 1 :: 0 :: s.1.used⟩, run s.1 s.2) else s

def settled (act : γ → σ → σ) (read : β → γ) (s : Buffer β × σ) : σ := (s.1.jobs read).foldl (fun s g => act g s) s.2

structure Sound (good : β → Prop) (q : Buffer β) : Prop where
  slots : ∀ k < 2, good (q.slot k)
  inside : ∀ a ∈ q.used, a < 2

variable {act : γ → σ → σ} {read : β → γ} {good : β → Prop} {run : Buffer β → σ → σ} {write : β → β}

@[simp] theorem fillSlot (write : β → β) (q : Buffer β) : (q.fill write).slot q.count = write (q.slot q.count) :=
  Function.update_self _ _ _

theorem fillOther (write : β → β) (q : Buffer β) {k : Nat} (other : k ≠ q.count) : (q.fill write).slot k = q.slot k :=
  Function.update_of_ne other _ _

theorem jobsFill (write : β → β) (q : Buffer β) :
    (q.fill write).jobs read = q.jobs read ++ [read (write (q.slot q.count))] := by
  have before : (List.range q.count).map (fun k => read ((q.fill write).slot k)) = q.jobs read :=
    List.map_congr_left fun k member => by
      rw [fillOther write q (Nat.ne_of_lt (List.mem_range.mp member))]
  rw [jobs, show (q.fill write).count = q.count + 1 from rfl, List.range_succ, List.map_append, before]
  simp

theorem settledFill (write : β → β) (q : Buffer β) (s : σ) :
    settled act read (q.fill write, s) = act (read (write (q.slot q.count))) (settled act read (q, s)) := by
  simp only [settled, jobsFill, List.foldl_append, List.foldl_cons, List.foldl_nil]

theorem settledEmpty {q : Buffer β} (empty : q.count = 0) (s : σ) : settled act read (q, s) = s := by
  simp [settled, jobs, empty]

theorem soundFill {q : Buffer β} (keeps : ∀ b, good b → good (write b)) (sound : q.Sound good) (room : q.count < 2) :
    (q.fill write).Sound good := by
  refine ⟨fun k below => ?_, fun a member => ?_⟩
  · by_cases here : k = q.count
    · rw [here, fillSlot]
      exact keeps _ (sound.slots _ room)
    · rw [fillOther write q here]
      exact sound.slots k below
  · cases member with
    | head => exact room
    | tail _ member => exact sound.inside a member

theorem soundDrain {s : Buffer β × σ} (sound : s.1.Sound good) (last : Bool) : (drainWhen run last s).1.Sound good := by
  unfold drainWhen
  split
  · refine ⟨sound.slots, fun a member => ?_⟩
    simp only [List.mem_cons] at member
    rcases member with rfl | rfl | member
    · decide
    · decide
    · exact sound.inside a member
  · exact sound

theorem drainRoom {s : Buffer β × σ} (fits : s.1.count ≤ 2) (last : Bool) : (drainWhen run last s).1.count < 2 := by
  unfold drainWhen
  split
  · exact Nat.zero_lt_two
  · rename_i kept
    have below : s.1.count ≠ 2 := fun full => kept (.inl full)
    omega

theorem drainLast (s : Buffer β × σ) : (drainWhen run true s).1.count = 0 := by
  rw [drainWhen, if_pos (.inr rfl)]

theorem settledDrain (runs : ∀ q : Buffer β, q.count ≤ 2 → ∀ s, run q s = settled act read (q, s))
    {s : Buffer β × σ} (fits : s.1.count ≤ 2) (last : Bool) :
    settled act read (drainWhen run last s) = settled act read s := by
  unfold drainWhen
  split
  · rw [settledEmpty rfl]
    exact runs s.1 fits s.2
  · rfl

end Buffer
end Buffer
end Armor.Batch
