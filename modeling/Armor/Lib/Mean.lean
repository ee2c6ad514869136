import Mathlib.Algebra.BigOperators.Group.List.Basic
import Mathlib.Algebra.Order.BigOperators.Group.List
import Mathlib.Algebra.Order.Field.Rat
import Mathlib.Data.List.Perm.Basic

/-! The mean of a list of rationals, `none` where there is nothing to average. -/
namespace Armor

def mean (values : List Rat) : Option Rat :=
  if values = [] then none else some (values.sum / values.length)

namespace Mean

variable {values other : List Rat}

theorem ofPerm (same : values.Perm other) : mean values = mean other := by
  have bare : values = [] ↔ other = [] := by
    rw [← List.length_eq_zero_iff, same.length_eq, List.length_eq_zero_iff]
  simp only [mean, bare, same.sum_eq, same.length_eq]

theorem ofZeros (some_ : values ≠ []) (zeros : ∀ v ∈ values, v = 0) : mean values = some 0 := by
  rw [mean, if_neg some_, List.sum_eq_zero zeros, zero_div]

theorem ofPositive (bounds : ∀ v ∈ values, 0 ≤ v) {v : Rat} (member : v ∈ values) (positive : 0 < v) :
    mean values ≠ some 0 := by
  have some_ : values ≠ [] := List.ne_nil_of_mem member
  have sum : 0 < values.sum := lt_of_lt_of_le positive (List.single_le_sum bounds v member)
  have length : (0 : Rat) < values.length := Nat.cast_pos.mpr (List.length_pos_of_ne_nil some_)
  rw [mean, if_neg some_]
  intro zero
  exact absurd (Option.some.inj zero) (ne_of_gt (div_pos sum length))

section Cells

variable {α : Type} {rows : List α} {cell : α → Option Rat} {row : α}

theorem ofZeroCells (member : row ∈ rows) (zeros : ∀ row ∈ rows, cell row = some 0) :
    mean (rows.filterMap cell) = some 0 := by
  refine ofZeros (List.ne_nil_of_mem (List.mem_filterMap.mpr ⟨row, member, zeros row member⟩)) fun v there => ?_
  obtain ⟨other, inside, value⟩ := List.mem_filterMap.mp there
  rw [zeros other inside] at value
  exact (Option.some.inj value).symm

theorem ofMarkedCells (marked : α → Prop) [DecidablePred marked]
    (cells : ∀ row ∈ rows, cell row = some (if marked row then 0 else 1)) (member : row ∈ rows) (other : ¬ marked row) :
    mean (rows.filterMap cell) ≠ some 0 := by
  have one : cell row = some 1 := (cells row member).trans (congrArg some (if_neg other))
  refine ofPositive (v := 1) (fun v there => ?_) (List.mem_filterMap.mpr ⟨row, member, one⟩) one_pos
  obtain ⟨near, inside, value⟩ := List.mem_filterMap.mp there
  rw [cells near inside] at value
  cases value
  split
  · exact le_refl _
  · exact zero_le_one

end Cells

end Mean
end Armor
