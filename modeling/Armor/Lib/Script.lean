/-! Scripts that run in steps on a state and may exit at any of them, leaving the state as it is then. -/
namespace Armor.Script

variable {σ τ α : Type}

structure Exit (σ : Type) where
  status : Nat
  left : σ

/-- Why a dialogue does not come to its end: the script exits with its help or with the error it prints, or
waits for an answer that never comes. -/
inductive Stop where
  | help
  | error (message : String)
  | waits
  deriving DecidableEq, Repr

def finish : Except (Exit σ) σ → Exit σ
  | .ok s => ⟨0, s⟩
  | .error e => e

def Passes (r : Except (Exit σ) σ) : Prop := ∃ s, r = .ok s

theorem passesBind {r : Except (Exit σ) σ} {f : σ → Except (Exit σ) σ} :
    Passes (r >>= f) ↔ ∃ s, r = .ok s ∧ Passes (f s) := by
  cases r with
  | error e =>
    constructor
    · rintro ⟨s, same⟩
      cases same
    · rintro ⟨s, same, -⟩
      cases same
  | ok s => exact ⟨fun passed => ⟨s, rfl, passed⟩, fun ⟨s', same, passed⟩ => by cases same; exact passed⟩

variable {step : σ → α → Except (Exit σ) σ}

theorem foldPasses {passes : α → Prop} {items : List α} (each : ∀ s, ∀ a ∈ items, Passes (step s a) ↔ passes a) (s : σ) :
    Passes (items.foldlM step s) ↔ ∀ a ∈ items, passes a := by
  induction items generalizing s with
  | nil => exact ⟨fun _ a member => absurd member List.not_mem_nil, fun _ => ⟨s, rfl⟩⟩
  | cons a items ih =>
    have later : ∀ mid, Passes (items.foldlM step mid) ↔ ∀ a ∈ items, passes a := fun mid =>
      ih (fun s a member => each s a (List.mem_cons_of_mem _ member)) mid
    rw [List.foldlM_cons, passesBind, List.forall_mem_cons, ← each s a List.mem_cons_self]
    simp only [later]
    exact exists_and_right

theorem foldKeeps (view : σ → τ) {items : List α} (each : ∀ s, ∀ a ∈ items, view (finish (step s a)).left = view s)
    (s : σ) : view (finish (items.foldlM step s)).left = view s := by
  induction items generalizing s with
  | nil => rfl
  | cons a items ih =>
    have first := each s a List.mem_cons_self
    rw [List.foldlM_cons]
    cases ran : step s a with
    | error e =>
      rw [ran] at first
      exact first
    | ok mid =>
      rw [ran] at first
      exact (ih (fun s a member => each s a (List.mem_cons_of_mem _ member)) mid).trans first

theorem foldAdds (view : σ → List τ) {adds : α → List τ} (each : ∀ s a s', step s a = .ok s' → view s' = view s ++ adds a)
    {items : List α} {s s' : σ} (passed : items.foldlM step s = .ok s') : view s' = view s ++ items.flatMap adds := by
  induction items generalizing s with
  | nil =>
    cases passed
    exact (List.append_nil _).symm
  | cons a items ih =>
    rw [List.foldlM_cons] at passed
    cases ran : step s a with
    | error e =>
      rw [ran] at passed
      cases passed
    | ok mid =>
      rw [ran] at passed
      rw [ih passed, each s a mid ran, List.flatMap_cons, List.append_assoc]

end Armor.Script
