import Mathlib.Data.List.Basic

/-! Loops that append rows to a table and may raise: such a loop gives the rows meant for its items
exactly where each item gives its own. -/
namespace Armor.Appending

variable {ε α β γ : Type}

def append (give : α → Except ε (List β)) (table : List β) (item : α) : Except ε (List β) := do
  let rows ← give item
  pure (table ++ rows)

theorem appendGiven {give : α → Except ε (List β)} {item : α} {rows : List β} (given : give item = .ok rows)
    (items : List α) (table : List β) :
    (item :: items).foldlM (append give) table = items.foldlM (append give) (table ++ rows) := by
  rw [List.foldlM_cons, append, given]
  rfl

theorem appendRaised {give : α → Except ε (List β)} {item : α} {e : ε} (raised : give item = .error e)
    (items : List α) (table : List β) : (item :: items).foldlM (append give) table = .error e := by
  rw [List.foldlM_cons, append, raised]
  rfl

theorem nested (step : List β → α → γ → Except ε (List β)) (outers : List α) (inners : List γ) (table : List β) :
    outers.foldlM (fun table outer => inners.foldlM (fun table inner => step table outer inner) table) table =
      (outers.flatMap fun outer => inners.map fun inner => (outer, inner)).foldlM
        (fun table pair => step table pair.1 pair.2) table := by
  induction outers generalizing table with
  | nil => rfl
  | cons outer outers ih =>
    rw [List.foldlM_cons, List.flatMap_cons, List.foldlM_append, List.foldlM_map]
    congr
    funext table
    exact ih table

theorem appendKeeps {give : α → Except ε (List β)} {items : List α} {table result : List β}
    (done : items.foldlM (append give) table = .ok result) : table <+: result := by
  induction items generalizing table with
  | nil =>
    cases done
    exact List.prefix_refl _
  | cons item items ih =>
    cases given : give item with
    | error e =>
      rw [appendRaised given] at done
      cases done
    | ok rows =>
      rw [appendGiven given] at done
      exact (List.prefix_append table rows).trans (ih done)

theorem appendExact {give : α → Except ε (List β)} {meant : α → List β}
    (lengths : ∀ item rows, give item = .ok rows → rows.length = (meant item).length) (items : List α)
    (table : List β) :
    items.foldlM (append give) table = .ok (table ++ items.flatMap meant) ↔ ∀ item ∈ items, give item = .ok (meant item) := by
  induction items generalizing table with
  | nil =>
    rw [List.flatMap_nil, List.append_nil]
    exact ⟨fun _ item member => (nomatch member), fun _ => rfl⟩
  | cons item items ih =>
    rw [List.flatMap_cons, List.forall_mem_cons]
    cases given : give item with
    | error e =>
      rw [appendRaised given]
      exact ⟨nofun, fun all => nomatch all.1⟩
    | ok rows =>
      rw [appendGiven given]
      constructor
      · intro done
        have kept := appendKeeps done
        rw [← List.append_assoc] at kept
        have begins : rows = meant item := by
          have even : (table ++ rows).length = (table ++ meant item).length := by
            rw [List.length_append, List.length_append, lengths item rows given]
          have both := List.prefix_of_prefix_length_le kept (List.prefix_append (table ++ meant item) _)
            (Nat.le_of_eq even)
          exact List.append_cancel_left (both.eq_of_length even)
        subst begins
        rw [← List.append_assoc] at done
        exact ⟨rfl, (ih (table ++ meant item)).mp done⟩
      · rintro ⟨same, rest⟩
        cases same
        rw [← List.append_assoc]
        exact (ih _).mpr rest

theorem appendAll {give : α → Except ε (List β)} {meant : α → List β} {items : List α}
    (each : ∀ item ∈ items, give item = .ok (meant item)) (table : List β) :
    items.foldlM (append give) table = .ok (table ++ items.flatMap meant) := by
  induction items generalizing table with
  | nil =>
    rw [List.flatMap_nil, List.append_nil]
    rfl
  | cons item items ih =>
    obtain ⟨first, others⟩ := List.forall_mem_cons.mp each
    rw [appendGiven first, ih others, List.flatMap_cons, List.append_assoc]

theorem mapExact {give : α → Option β} {meant : α → β} (items : List α) :
    items.mapM give = some (items.map meant) ↔ ∀ item ∈ items, give item = some (meant item) := by
  induction items with
  | nil => exact ⟨fun _ item member => (nomatch member), fun _ => rfl⟩
  | cons item items ih =>
    rw [List.mapM_cons, List.map_cons, List.forall_mem_cons, ← ih]
    cases given : give item with
    | none => exact ⟨nofun, fun both => nomatch both.1⟩
    | some entry =>
      cases rest : items.mapM give with
      | none => exact ⟨nofun, fun both => nomatch both.2⟩
      | some entries =>
        constructor
        · intro same
          cases same
          exact ⟨rfl, rfl⟩
        · rintro ⟨first, others⟩
          cases first
          cases others
          rfl

theorem mapFlatten {give : α → Option (List β)} {meant : α → List β} {items : List α}
    (each : ∀ item ∈ items, give item = some (meant item)) : (items.mapM give).map List.flatten = some (items.flatMap meant) := by
  rw [(mapExact items).mpr each, Option.map_some, List.flatMap_def]

theorem mapSame {give give' : α → Option β} {items : List α} (same : ∀ item ∈ items, give item = give' item) :
    items.mapM give = items.mapM give' := by
  induction items with
  | nil => rfl
  | cons item items ih =>
    obtain ⟨first, others⟩ := List.forall_mem_cons.mp same
    rw [List.mapM_cons, List.mapM_cons, first, ih others]

theorem mapGiven {give : α → Option β} {items : List α} {entries : List β} (done : items.mapM give = some entries) {item : α}
    (member : item ∈ items) : ∃ entry, give item = some entry := by
  induction items generalizing entries with
  | nil => cases member
  | cons first items ih =>
    rw [List.mapM_cons] at done
    cases given : give first with
    | none =>
      rw [given] at done
      cases done
    | some entry =>
      cases rest : items.mapM give with
      | none =>
        rw [given, rest] at done
        cases done
      | some others =>
        cases List.mem_cons.mp member with
        | inl same => exact ⟨entry, same ▸ given⟩
        | inr later => exact ih rest later

theorem flatMapEach {entries other : α → List β} (lengths : ∀ item, (entries item).length = (other item).length)
    {items : List α} (same : items.flatMap entries = items.flatMap other) {item : α} (member : item ∈ items) :
    entries item = other item := by
  induction items with
  | nil => cases member
  | cons first items ih =>
    rw [List.flatMap_cons, List.flatMap_cons] at same
    obtain ⟨here, later⟩ := List.append_inj same (lengths first)
    cases List.mem_cons.mp member with
    | inl equal =>
      rw [equal]
      exact here
    | inr inside => exact ih later inside

theorem lookupFiled [BEq α] [LawfulBEq α] (content : α → β) {items : List α} {item : α} (member : item ∈ items) :
    (items.map fun item => (item, content item)).lookup item = some (content item) := by
  induction items with
  | nil => cases member
  | cons first items ih =>
    rw [List.map_cons, List.lookup_cons]
    cases here : item == first with
    | true => rw [eq_of_beq here]
    | false =>
      refine ih ((List.mem_cons.mp member).resolve_left fun same => ?_)
      rw [same, beq_self_eq_true] at here
      cases here

end Armor.Appending
