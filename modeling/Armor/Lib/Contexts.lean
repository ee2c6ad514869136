import Mathlib.Data.List.Basic

/-! Traces of resources that are initialised and released: when a trace is balanced, how balanced
pieces compose, and what a resource that is never released means. Every local resource of a
function has a number of its own, taken when it is declared. -/
namespace Armor.Contexts

inductive Op where
  | init (context : Nat)
  | release (context : Nat)
  deriving DecidableEq, Repr

def Op.context : Op → Nat
  | .init context => context
  | .release context => context

/-- The live contexts after a trace; none where a live context is initialised again or one that is
not live is released. -/
def replay : List Nat → List Op → Option (List Nat)
  | live, [] => some live
  | live, .init context :: rest => if context ∈ live then none else replay (context :: live) rest
  | live, .release context :: rest => if context ∈ live then replay (live.erase context) rest else none

def Balanced (ops : List Op) : Prop := replay [] ops = some []

theorem replayAppend (live : List Nat) (first second : List Op) :
    replay live (first ++ second) = (replay live first).bind fun live => replay live second := by
  induction first generalizing live with
  | nil => rfl
  | cons op first ih =>
    cases op with
    | init context =>
      simp only [List.cons_append, replay]
      split
      · rfl
      · exact ih _
    | release context =>
      simp only [List.cons_append, replay]
      split
      · exact ih _
      · rfl

theorem replayKeeps {ops : List Op} {context : Nat} {live after : List Nat} (held : .release context ∉ ops)
    (member : context ∈ live ∨ .init context ∈ ops) (run : replay live ops = some after) : context ∈ after := by
  induction ops generalizing live with
  | nil =>
    cases run
    exact member.resolve_right List.not_mem_nil
  | cons op ops ih =>
    have later : .release context ∉ ops := fun released => held (List.mem_cons_of_mem _ released)
    cases op with
    | init other =>
      rw [replay] at run
      split at run
      · cases run
      · refine ih later ?_ run
        cases member with
        | inl member => exact .inl (List.mem_cons_of_mem _ member)
        | inr member =>
          cases List.mem_cons.mp member with
          | inl same =>
            cases same
            exact .inl List.mem_cons_self
          | inr member => exact .inr member
    | release other =>
      have differ : context ≠ other := by
        rintro rfl
        exact held List.mem_cons_self
      rw [replay] at run
      split at run
      · refine ih later ?_ run
        cases member with
        | inl member => exact .inl ((List.mem_erase_of_ne differ).mpr member)
        | inr member =>
          cases List.mem_cons.mp member with
          | inl same => cases same
          | inr member => exact .inr member
      · cases run

theorem unreleased {ops : List Op} {context : Nat} (initialised : .init context ∈ ops) (held : .release context ∉ ops) :
    ¬ Balanced ops := by
  intro balanced
  exact List.not_mem_nil (replayKeeps held (.inr initialised) balanced)

structure Trace where
  next : Nat
  ops : List Op

def Trace.empty : Trace := ⟨0, []⟩

def Trace.init (context : Nat) (s : Trace) : Trace := { s with ops := s.ops ++ [.init context] }

def Trace.release (context : Nat) (s : Trace) : Trace := { s with ops := s.ops ++ [.release context] }

def Trace.declare (body : Nat → Trace → Trace) (s : Trace) : Trace := body s.next { s with next := s.next + 1 }

structure Above (base : Nat) (s s' : Trace) : Prop where
  declared : s.next ≤ s'.next
  added : ∃ ops, s'.ops = s.ops ++ ops ∧ ∀ op ∈ ops, base ≤ op.context

structure Closes (base : Nat) (s s' : Trace) : Prop where
  declared : s.next ≤ s'.next
  added : ∃ ops, s'.ops = s.ops ++ ops ∧ (∀ op ∈ ops, base ≤ op.context) ∧
    ∀ live : List Nat, (∀ context ∈ live, context < base) → replay live ops = some live

variable {base : Nat} {s s' s'' : Trace}

theorem Closes.above (closes : Closes base s s') : Above base s s' := by
  obtain ⟨declared, ops, same, above, -⟩ := closes
  exact ⟨declared, ops, same, above⟩

theorem Above.refl : Above base s s := ⟨Nat.le_refl _, [], (List.append_nil _).symm, nofun⟩

theorem Closes.refl : Closes base s s := ⟨Nat.le_refl _, [], (List.append_nil _).symm, nofun, fun _ _ => rfl⟩

theorem Above.trans (first : Above base s s') (second : Above base s' s'') : Above base s s'' := by
  obtain ⟨declared, ops, same, above⟩ := first
  obtain ⟨declared', ops', same', above'⟩ := second
  refine ⟨Nat.le_trans declared declared', ops ++ ops', by rw [same', same, List.append_assoc], fun op member => ?_⟩
  cases List.mem_append.mp member with
  | inl member => exact above op member
  | inr member => exact above' op member

theorem Closes.trans (first : Closes base s s') (second : Closes base s' s'') : Closes base s s'' := by
  have both := first.above.trans second.above
  obtain ⟨declared, ops, same, above, replays⟩ := first
  obtain ⟨declared', ops', same', above', replays'⟩ := second
  refine ⟨both.declared, ops ++ ops', by rw [same', same, List.append_assoc], fun op member => ?_, fun live low => ?_⟩
  · cases List.mem_append.mp member with
    | inl member => exact above op member
    | inr member => exact above' op member
  · rw [replayAppend, replays live low, Option.bind_some, replays' live low]

theorem Above.lower {low : Nat} (le : low ≤ base) (above : Above base s s') : Above low s s' := by
  obtain ⟨declared, ops, same, above⟩ := above
  exact ⟨declared, ops, same, fun op member => Nat.le_trans le (above op member)⟩

theorem Closes.lower {low : Nat} (le : low ≤ base) (closes : Closes base s s') : Closes low s s' := by
  obtain ⟨declared, ops, same, above, replays⟩ := closes
  exact ⟨declared, ops, same, fun op member => Nat.le_trans le (above op member),
    fun live small => replays live fun context member => Nat.lt_of_lt_of_le (small context member) le⟩

theorem initAbove (context : Nat) (s : Trace) : Above context s (s.init context) :=
  ⟨Nat.le_refl _, [.init context], rfl, fun op member => by rw [List.mem_singleton.mp member]; exact Nat.le_refl _⟩

theorem closesAround {context : Nat} (inner : Closes (context + 1) (s.init context) s') :
    Closes context s (s'.release context) := by
  obtain ⟨declared, ops, same, above, replays⟩ := inner
  refine ⟨declared, .init context :: (ops ++ [.release context]), ?_, ?_, ?_⟩
  · change s'.ops ++ [Op.release context] = s.ops ++ (Op.init context :: (ops ++ [Op.release context]))
    rw [same]
    change (s.ops ++ [Op.init context]) ++ ops ++ [Op.release context] = _
    rw [List.append_assoc, List.append_assoc]
    rfl
  · intro op member
    cases List.mem_cons.mp member with
    | inl same => exact same ▸ Nat.le_refl _
    | inr member =>
      cases List.mem_append.mp member with
      | inl member => exact Nat.le_of_succ_le (above op member)
      | inr member => exact List.mem_singleton.mp member ▸ Nat.le_refl _
  · intro live low
    have fresh : context ∉ live := fun member => Nat.lt_irrefl _ (low context member)
    have small : ∀ c ∈ context :: live, c < context + 1 := by
      intro c member
      cases List.mem_cons.mp member with
      | inl same => exact same ▸ Nat.lt_succ_self _
      | inr member => exact Nat.lt_succ_of_lt (low c member)
    rw [replay, if_neg fresh, replayAppend, replays _ small, Option.bind_some, replay, if_pos List.mem_cons_self,
      List.erase_cons_head]
    rfl

theorem declareCloses {body : Nat → Trace → Trace}
    (closes : ∀ s' : Trace, s'.next = s.next + 1 → Closes base s' (body s.next s')) : Closes base s (s.declare body) := by
  obtain ⟨declared, added⟩ := closes { s with next := s.next + 1 } rfl
  exact ⟨Nat.le_of_succ_le declared, added⟩

theorem declareAbove {body : Nat → Trace → Trace}
    (above : ∀ s' : Trace, s'.next = s.next + 1 → Above base s' (body s.next s')) : Above base s (s.declare body) := by
  obtain ⟨declared, added⟩ := above { s with next := s.next + 1 } rfl
  exact ⟨Nat.le_of_succ_le declared, added⟩

theorem closesBalanced (closes : Closes 0 Trace.empty s) : Balanced s.ops := by
  obtain ⟨-, ops, same, -, replays⟩ := closes
  rw [same]
  exact replays [] nofun

theorem aboveHolds {context : Nat} (held : .release context ∉ s.ops) (above : Above (context + 1) s s') :
    .release context ∉ s'.ops := by
  obtain ⟨-, ops, same, above⟩ := above
  rw [same]
  intro released
  cases List.mem_append.mp released with
  | inl released => exact held released
  | inr released => exact absurd (above _ released) (Nat.not_succ_le_self _)

end Armor.Contexts
