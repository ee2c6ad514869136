import Mathlib.Data.Option.Basic

/-! Runs of a partial step function under a schedule of actions, and the rule that carries an
invariant along a run until the first step of a marked kind. -/
namespace Armor.Run

variable {σ α : Type}

def execute (step : σ → α → Option σ) : σ → List α → Option σ
  | s, [] => some s
  | s, a :: rest => (step s a).bind (fun s' => execute step s' rest)

def takes (mark : σ → α → Bool) (step : σ → α → Option σ) : σ → List α → Bool
  | _, [] => false
  | s, a :: rest => mark s a || ((step s a).elim false fun s' => takes mark step s' rest)

variable {mark : σ → α → Bool} {step : σ → α → Option σ}

theorem executeCons {s s' : σ} {a : α} {rest : List α} :
    execute step s (a :: rest) = some s' ↔ ∃ mid, step s a = some mid ∧ execute step mid rest = some s' := by
  simp only [execute, Option.bind_eq_some_iff]

theorem executeAppend (s : σ) (first second : List α) :
    execute step s (first ++ second) = (execute step s first).bind (fun s' => execute step s' second) := by
  induction first generalizing s with
  | nil => rfl
  | cons a rest ih =>
    simp only [List.cons_append, execute, ih]
    cases step s a <;> rfl

theorem executeThen {s mid s' : σ} {first second : List α} (begins : execute step s first = some mid)
    (ends : execute step mid second = some s') : execute step s (first ++ second) = some s' := by
  rw [executeAppend, begins]
  exact ends

theorem executeKeeps {before after : σ → Prop}
    (keep : ∀ {s a s'}, before s → mark s a = false → step s a = some s' → before s')
    (turn : ∀ {s a s'}, before s → mark s a = true → step s a = some s' → after s')
    (stay : ∀ {s a s'}, after s → step s a = some s' → after s') {s s' : σ} {actions : List α}
    (run : execute step s actions = some s') (start : before s) :
    (takes mark step s actions = false → before s') ∧ (takes mark step s actions = true → after s') := by
  have stays : ∀ {s : σ} {actions : List α}, execute step s actions = some s' → after s → after s' := by
    intro s actions run holds
    induction actions generalizing s with
    | nil =>
      cases run
      exact holds
    | cons a rest ih =>
      obtain ⟨mid, first, run⟩ := executeCons.mp run
      exact ih run (stay holds first)
  induction actions generalizing s with
  | nil =>
    cases run
    exact ⟨fun _ => start, fun marked => by cases marked⟩
  | cons a rest ih =>
    obtain ⟨mid, first, run⟩ := executeCons.mp run
    simp only [takes, first, Option.elim_some]
    cases marked : mark s a with
    | false => simpa using ih run (keep start marked first)
    | true => simpa using stays run (turn start marked first)

theorem executeHistory {before after : σ → List α → Prop}
    (keep : ∀ {s a s' past}, before s past → mark s a = false → step s a = some s' → before s' (past ++ [a]))
    (turn : ∀ {s a s' past}, before s past → mark s a = true → step s a = some s' → after s' (past ++ [a]))
    (stay : ∀ {s a s' past}, after s past → step s a = some s' → after s' (past ++ [a])) {s s' : σ}
    {past actions : List α} (run : execute step s actions = some s') (start : before s past) :
    (takes mark step s actions = false → before s' (past ++ actions)) ∧
    (takes mark step s actions = true → after s' (past ++ actions)) := by
  have stays : ∀ {s : σ} {past actions : List α}, execute step s actions = some s' → after s past →
      after s' (past ++ actions) := by
    intro s past actions run holds
    induction actions generalizing s past with
    | nil =>
      cases run
      rwa [List.append_nil]
    | cons a rest ih =>
      obtain ⟨mid, first, run⟩ := executeCons.mp run
      rw [List.append_cons]
      exact ih run (stay holds first)
  induction actions generalizing s past with
  | nil =>
    cases run
    rw [List.append_nil]
    exact ⟨fun _ => start, fun marked => by cases marked⟩
  | cons a rest ih =>
    obtain ⟨mid, first, run⟩ := executeCons.mp run
    rw [List.append_cons]
    simp only [takes, first, Option.elim_some]
    cases marked : mark s a with
    | false => simpa using ih run (keep start marked first)
    | true => simpa using stays run (turn start marked first)

section Logs

variable {β : Type}

def log (mark : σ → α → Option β) (step : σ → α → Option σ) : σ → List α → List β
  | _, [] => []
  | s, a :: rest => (mark s a).toList ++ ((step s a).elim [] fun s' => log mark step s' rest)

theorem executeLogs {mark : σ → α → Option β} {holds : σ → List β → Prop}
    (keep : ∀ {s a s' logged}, holds s logged → step s a = some s' → holds s' (logged ++ (mark s a).toList))
    {s s' : σ} {actions : List α} {logged : List β} (run : execute step s actions = some s') (start : holds s logged) :
    holds s' (logged ++ log mark step s actions) := by
  induction actions generalizing s logged with
  | nil =>
    cases run
    rwa [log, List.append_nil]
  | cons a rest ih =>
    obtain ⟨mid, first, run⟩ := executeCons.mp run
    rw [log, first, Option.elim_some, ← List.append_assoc]
    exact ih run (keep start first)

theorem executeInvariant {holds : σ → Prop} (keep : ∀ {s a s'}, holds s → step s a = some s' → holds s')
    {s s' : σ} {actions : List α} (run : execute step s actions = some s') (start : holds s) : holds s' :=
  @executeLogs σ α step Unit (fun _ _ => none) (fun s _ => holds s) (fun held moves => keep held moves) s s' actions []
    run start

end Logs

end Armor.Run
