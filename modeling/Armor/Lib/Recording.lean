import Mathlib.Data.List.Induction
import Mathlib.Data.List.Nodup
import Mathlib.Logic.Function.Basic

/-! Files written one after another, each one anew: a file holds what was written to it last. -/
namespace Armor.Recording

variable {κ α : Type} [DecidableEq κ]

def record (files : κ → Option α) (entry : κ × α) : κ → Option α := Function.update files entry.1 (some entry.2)

def recordAll (files : κ → Option α) (log : List (κ × α)) : κ → Option α := log.foldl record files

variable {files : κ → Option α} {log : List (κ × α)}

theorem recordOwn (entry : κ × α) : record files entry entry.1 = some entry.2 := Function.update_self _ _ _

theorem recordOther {entry : κ × α} {key : κ} (other : key ≠ entry.1) : record files entry key = files key :=
  Function.update_of_ne other _ _

theorem recordAllNext (files : κ → Option α) (log : List (κ × α)) (entry : κ × α) :
    recordAll files (log ++ [entry]) = record (recordAll files log) entry := List.foldl_concat ..

theorem recordAllUnwritten {key : κ} (unwritten : ∀ entry ∈ log, entry.1 ≠ key) : recordAll files log key = files key := by
  induction log using List.reverseRecOn with
  | nil => rfl
  | append_singleton log entry ih =>
    rw [recordAllNext, recordOther (unwritten entry (List.mem_append_right _ List.mem_cons_self)).symm]
    exact ih fun earlier member => unwritten earlier (List.mem_append_left _ member)

theorem recordAllWritten {key : κ} (written : ∃ entry ∈ log, entry.1 = key) :
    ∃ entry ∈ log, entry.1 = key ∧ recordAll files log key = some entry.2 := by
  induction log using List.reverseRecOn with
  | nil =>
    obtain ⟨entry, member, -⟩ := written
    exact absurd member List.not_mem_nil
  | append_singleton log last ih =>
    rw [recordAllNext]
    by_cases own : last.1 = key
    · exact ⟨last, List.mem_append_right _ List.mem_cons_self, own, own ▸ recordOwn last⟩
    · obtain ⟨entry, member, same⟩ := written
      have earlier : entry ∈ log := (List.mem_append.mp member).resolve_right fun single =>
        own ((List.mem_singleton.mp single).symm ▸ same)
      obtain ⟨found, inside, named, content⟩ := ih ⟨entry, earlier, same⟩
      exact ⟨found, List.mem_append_left _ inside, named, (recordOther (Ne.symm own)).trans content⟩

theorem recordAllUnique (unique : (log.map Prod.fst).Nodup) {entry : κ × α} (member : entry ∈ log) :
    recordAll files log entry.1 = some entry.2 := by
  induction log using List.reverseRecOn with
  | nil => exact absurd member List.not_mem_nil
  | append_singleton log last ih =>
    rw [List.map_append, List.nodup_append] at unique
    obtain ⟨before, -, apart⟩ := unique
    rw [recordAllNext]
    rcases List.mem_append.mp member with earlier | own
    · have other : entry.1 ≠ last.1 := apart entry.1 (List.mem_map_of_mem earlier) last.1 List.mem_cons_self
      rw [recordOther other]
      exact ih before earlier
    · rw [List.mem_singleton.mp own, recordOwn]

theorem lookupUnique {names : List (κ × α)} (unique : (names.map Prod.fst).Nodup) {entry : κ × α} (member : entry ∈ names) :
    names.lookup entry.1 = some entry.2 := by
  induction names with
  | nil => exact absurd member List.not_mem_nil
  | cons first rest ih =>
    rw [List.map_cons, List.nodup_cons] at unique
    rcases List.mem_cons.mp member with own | later
    · rw [own, List.lookup_cons, beq_self_eq_true]
    · have other : entry.1 ≠ first.1 := fun same => unique.1 (same ▸ List.mem_map_of_mem later)
      rw [List.lookup_cons, beq_false_of_ne other]
      exact ih unique.2 later

end Armor.Recording
