import Mathlib.Data.List.Basic

/-! What the parsers and the averages rely on of `pandas`: `read_csv` on a column of names with the rows that
`df[df[column].str.contains(..)]` selects, and the frames that are made of one row after another. -/
namespace Armor.Results

/-- Whether `read_csv` keeps a column of these cells as text, and which cells of such a column it reads
as missing. -/
structure ReadCsv where
  textColumn : List String → Bool
  missing : String → Bool

namespace ReadCsv

variable (csv : ReadCsv) {ρ : Type}

/-- The `str` accessor raises on a column of another type; a column without cells has none. -/
def hasStr (column : List String) : Bool := column.isEmpty || csv.textColumn column

def isText (column : List String) : Bool := csv.hasStr column && column.all fun cell => !csv.missing cell

/-- The selection from rows whose column was read as `typed`: a missing cell is no truth value. -/
def strContains (typed : List String) (column : ρ → String) (found : String → Bool) (rows : List ρ) : Option (List ρ) :=
  if csv.hasStr typed && (rows.map column).all fun cell => !csv.missing cell then
    some (rows.filter fun row => found (column row))
  else none

def select (column : ρ → String) (found : String → Bool) (rows : List ρ) : Option (List ρ) :=
  csv.strContains (rows.map column) column found rows

variable {csv} {column : ρ → String} {found : String → Bool} {rows : List ρ}

theorem strContainsText (text : csv.isText (rows.map column) = true) {kept : List ρ} (inside : kept ⊆ rows) :
    csv.strContains (rows.map column) column found kept = some (kept.filter fun row => found (column row)) := by
  obtain ⟨typed, present⟩ := Bool.and_eq_true_iff.mp text
  refine if_pos (Bool.and_eq_true_iff.mpr ⟨typed, List.all_eq_true.mpr fun cell member => ?_⟩)
  exact List.all_eq_true.mp present cell (List.map_subset column inside member)

theorem selectText (text : csv.isText (rows.map column) = true) :
    csv.select column found rows = some (rows.filter fun row => found (column row)) :=
  strContainsText text (List.Subset.refl rows)

theorem strContainsSome {typed : List String} {selected : List ρ}
    (done : csv.strContains typed column found rows = some selected) :
    csv.hasStr typed = true ∧ ((rows.map column).all fun cell => !csv.missing cell) = true := by
  rw [← Bool.and_eq_true]
  by_contra other
  rw [strContains, if_neg other] at done
  cases done

theorem selectSome {selected : List ρ} (done : csv.select column found rows = some selected) :
    csv.isText (rows.map column) = true :=
  Bool.and_eq_true_iff.mpr (strContainsSome done)

end ReadCsv

def lettered : ReadCsv := ⟨fun column => column.any fun cell => cell.toList.any Char.isAlpha, fun _ => false⟩

structure ColumnMismatch where
  columns : Nat
  passed : Nat
  deriving DecidableEq, Repr

/-- `pd.DataFrame([row], columns=columns)`, and `df.loc[len(df)] = row` on a frame of `columns` columns, which
raise for a row of another length. -/
structure DataFrames where
  dataFrame : List String → List String → Except ColumnMismatch (List (List String))
  setRow : Nat → List (List String) → List String → Option (List (List String))
  dataFrameFits : ∀ columns row, row.length = columns.length → dataFrame columns row = .ok [row]
  dataFrameMisfits : ∀ columns row, row.length ≠ columns.length →
    dataFrame columns row = .error ⟨columns.length, row.length⟩
  setRowFits : ∀ columns rows row, row.length = columns → setRow columns rows row = some (rows ++ [row])
  setRowMisfits : ∀ columns rows row, row.length ≠ columns → setRow columns rows row = none

def plainDataFrame (columns row : List String) : Except ColumnMismatch (List (List String)) :=
  if row.length = columns.length then .ok [row] else .error ⟨columns.length, row.length⟩

def plainSetRow (columns : Nat) (rows : List (List String)) (row : List String) : Option (List (List String)) :=
  if row.length = columns then some (rows ++ [row]) else none

theorem plainDataFrameFits (columns row : List String) (fits : row.length = columns.length) :
    plainDataFrame columns row = .ok [row] := if_pos fits

theorem plainDataFrameMisfits (columns row : List String) (misfits : row.length ≠ columns.length) :
    plainDataFrame columns row = .error ⟨columns.length, row.length⟩ := if_neg misfits

theorem plainSetRowFits (columns : Nat) (rows : List (List String)) (row : List String) (fits : row.length = columns) :
    plainSetRow columns rows row = some (rows ++ [row]) := if_pos fits

theorem plainSetRowMisfits (columns : Nat) (rows : List (List String)) (row : List String) (misfits : row.length ≠ columns) :
    plainSetRow columns rows row = none := if_neg misfits

def plainFrames : DataFrames where
  dataFrame := plainDataFrame
  setRow := plainSetRow
  dataFrameFits := plainDataFrameFits
  dataFrameMisfits := plainDataFrameMisfits
  setRowFits := plainSetRowFits
  setRowMisfits := plainSetRowMisfits

end Armor.Results
