import Armor.Lib.Appending
import Armor.Results.TlsSpeedAverages

/-! `get_speed_metrics` on the raw logs of `openssl speed`: the rows of the result table, and the
lines that end the parsing or are left out. -/
namespace Armor.Results
open Text (contains split strip)

def startsTable (line : String) : Bool := contains line "keygens/s" || contains line "sign" && contains line "verify"

def dataLists : Bool → List String → List String
  | _, [] => []
  | start, line :: rest =>
    if startsTable line then dataLists true rest
    else if start then strip line :: dataLists start rest
    else dataLists start rest

/-- `cell.replace('s', '')` -/
def dropSuffix (cell : String) : String := String.ofList (cell.toList.filter (· ≠ 's'))

def tlsSpeedDropLast : List String → List String
  | [] => []
  | name :: cells => name :: cells.map dropSuffix

def speedLogRow (pd : DataFrames) (headers : List String) (data : String) : Except ColumnMismatch (List (List String)) :=
  pd.dataFrame headers (tlsSpeedDropLast (split data))

def getSpeedMetrics (pd : DataFrames) (kind : AlgKind) (speedFile : List String) : Except ColumnMismatch (List (List String)) :=
  (dataLists false speedFile).foldlM (Appending.append (speedLogRow pd kind.speedHeaders)) []

def isNumeric (text : String) : Bool :=
  text.toList ≠ [] && text.toList.all fun c => c.isDigit || c ∈ ['.', '-', '+', 'e', 'E']

structure LoggedRow where
  line : String
  name : String
  cells : List (String × Bool)
  words : split line = name :: cells.map fun cell => if cell.2 then cell.1 ++ "s" else cell.1
  six : cells.length = 6
  numeric : ∀ cell ∈ cells, isNumeric cell.1 = true

def LoggedRow.meant (row : LoggedRow) : List String := row.name :: row.cells.map Prod.fst

inductive LogEntry where
  | logged (row : LoggedRow)
  | blank (line : String) (spaces : split line = [])

def LogEntry.line : LogEntry → String
  | .logged row => row.line
  | .blank line _ => line

def LogEntry.meant : LogEntry → List (List String)
  | .logged row => [row.meant]
  | .blank _ _ => []

structure SpeedLog where
  preamble : List String
  free : ∀ line ∈ preamble, startsTable line = false
  header : String
  starts : startsTable header = true
  table : List LogEntry

def SpeedLog.lines (log : SpeedLog) : List String := log.preamble ++ log.header :: log.table.map LogEntry.line

def SpeedLog.rows (log : SpeedLog) : List (List String) := log.table.flatMap LogEntry.meant

def LogEntry.Plain : LogEntry → Prop
  | .logged row => startsTable row.line = false
  | .blank _ _ => False

theorem dropSuffixNumeric {text : String} (numeric : isNumeric text = true) (suffix : Bool) :
    dropSuffix (if suffix then text ++ "s" else text) = text := by
  simp only [isNumeric, Bool.and_eq_true, decide_eq_true_eq, List.all_eq_true] at numeric
  have kept : text.toList.filter (· ≠ 's') = text.toList := by
    rw [List.filter_eq_self]
    intro c member
    refine decide_eq_true fun same => ?_
    have allowed := numeric.2 c member
    rw [same] at allowed
    exact absurd allowed (by decide)
  rw [dropSuffix, ← String.toList_inj, String.toList_ofList]
  cases suffix with
  | false => exact kept
  | true =>
    rw [if_pos rfl, String.toList_append, List.filter_append, kept]
    exact List.append_nil _

theorem dataListsBefore {preamble : List String} (free : ∀ line ∈ preamble, startsTable line = false)
    (rest : List String) : dataLists false (preamble ++ rest) = dataLists false rest := by
  induction preamble with
  | nil => rfl
  | cons line preamble ih =>
    rw [List.cons_append, dataLists, if_neg (ne_true_of_eq_false (free line List.mem_cons_self)), if_neg Bool.false_ne_true]
    exact ih fun other member => free other (List.mem_cons_of_mem line member)

theorem dataListsTable (lines : List String) :
    dataLists true lines = (lines.filter fun line => !startsTable line).map strip := by
  induction lines with
  | nil => rfl
  | cons line lines ih =>
    rw [dataLists, List.filter_cons]
    cases startsTable line with
    | true => exact ih
    | false => exact congrArg (strip line :: ·) ih

theorem speedLogData (log : SpeedLog) :
    dataLists false log.lines = ((log.table.map LogEntry.line).filter fun line => !startsTable line).map strip := by
  rw [SpeedLog.lines, dataListsBefore log.free, dataLists, if_pos log.starts, dataListsTable]

theorem speedHeadersSeven (kind : AlgKind) : kind.speedHeaders.length = 7 := by
  cases kind <;> rfl

variable (pd : DataFrames)

theorem speedLogRowMeant (kind : AlgKind) (row : LoggedRow) :
    speedLogRow pd kind.speedHeaders (strip row.line) = .ok [row.meant] := by
  have cells : tlsSpeedDropLast (split (strip row.line)) = row.meant := by
    rw [Text.splitStrip, row.words, tlsSpeedDropLast, LoggedRow.meant, List.map_map]
    refine congrArg (row.name :: ·) (List.map_congr_left fun cell member => ?_)
    exact dropSuffixNumeric (row.numeric cell member) cell.2
  have seven : row.meant.length = 7 := by
    rw [LoggedRow.meant, List.length_cons, List.length_map, row.six]
  rw [speedLogRow, cells]
  exact pd.dataFrameFits _ _ (seven.trans (speedHeadersSeven kind).symm)

theorem speedLogRowBlank (kind : AlgKind) {line : String} (spaces : split line = []) :
    speedLogRow pd kind.speedHeaders (strip line) = .error ⟨7, 0⟩ := by
  have seven := speedHeadersSeven kind
  have raised := pd.dataFrameMisfits kind.speedHeaders [] (by rw [seven]; exact nofun)
  rw [seven] at raised
  rw [speedLogRow, Text.splitStrip, spaces]
  exact raised

theorem blankStartsNothing {line : String} (spaces : split line = []) : startsTable line = false := by
  have absent : ∀ needle : String, (∃ c ∈ needle.toList, Text.isSpace c = false) → contains line needle = false :=
    fun needle dark => Bool.eq_false_iff.mpr fun found => Text.splitOfContains found dark spaces
  rw [startsTable, absent "keygens/s" ⟨'k', by decide, by decide⟩, absent "sign" ⟨'s', by decide, by decide⟩]
  rfl

def entryRows (pd : DataFrames) (kind : AlgKind) (entry : LogEntry) : Except ColumnMismatch (List (List String)) :=
  if startsTable entry.line then .ok [] else speedLogRow pd kind.speedHeaders (strip entry.line)

theorem getSpeedMetricsEntries (kind : AlgKind) (log : SpeedLog) :
    getSpeedMetrics pd kind log.lines = log.table.foldlM (Appending.append (entryRows pd kind)) [] := by
  rw [getSpeedMetrics, speedLogData]
  have run : ∀ (table : List LogEntry) (rows : List (List String)),
      (((table.map LogEntry.line).filter fun line => !startsTable line).map strip).foldlM
        (Appending.append (speedLogRow pd kind.speedHeaders)) rows =
      table.foldlM (Appending.append (entryRows pd kind)) rows := by
    intro table
    induction table with
    | nil => exact fun _ => rfl
    | cons entry table ih =>
      intro rows
      rw [List.map_cons, List.filter_cons, List.foldlM_cons]
      cases start : startsTable entry.line with
      | true =>
        have nothing : Appending.append (entryRows pd kind) rows entry = .ok rows := by
          rw [Appending.append, entryRows, if_pos start]
          exact congrArg Except.ok (List.append_nil rows)
        rw [nothing]
        exact ih rows
      | false =>
        have given : Appending.append (entryRows pd kind) rows entry =
            Appending.append (speedLogRow pd kind.speedHeaders) rows (strip entry.line) := by
          rw [Appending.append, Appending.append, entryRows, if_neg (ne_true_of_eq_false start)]
        rw [given]
        change List.foldlM _ _ (strip entry.line :: _) = _
        rw [List.foldlM_cons]
        exact bind_congr fun more => ih more
  exact run log.table []

theorem entryLogged (kind : AlgKind) (row : LoggedRow) :
    entryRows pd kind (.logged row) = .ok (if startsTable row.line then [] else [row.meant]) := by
  rw [entryRows, LogEntry.line, speedLogRowMeant pd]
  split <;> rfl

theorem entryBlank (kind : AlgKind) {line : String} (spaces : split line = []) :
    entryRows pd kind (.blank line spaces) = .error ⟨7, 0⟩ := by
  rw [entryRows, LogEntry.line, if_neg (ne_true_of_eq_false (blankStartsNothing spaces)), speedLogRowBlank pd kind spaces]

variable {pd} in
theorem metricsBounded {kind : AlgKind} {table : List LogEntry} {rows result : List (List String)}
    (parsed : table.foldlM (Appending.append (entryRows pd kind)) rows = .ok result) :
    result.length ≤ rows.length + (table.flatMap LogEntry.meant).length := by
  induction table generalizing rows with
  | nil =>
    cases parsed
    exact Nat.le_refl _
  | cons entry table ih =>
    cases entry with
    | blank line spaces =>
      rw [Appending.appendRaised (entryBlank pd kind spaces)] at parsed
      cases parsed
    | logged row =>
      rw [Appending.appendGiven (entryLogged pd kind row)] at parsed
      have later := ih parsed
      have one : (if startsTable row.line then [] else [row.meant]).length ≤ 1 := by
        split <;> simp only [List.length_nil, List.length_singleton, Nat.zero_le, Nat.le_refl]
      rw [List.length_append] at later
      rw [List.flatMap_cons, List.length_append, show (LogEntry.logged row).meant.length = 1 from rfl]
      omega

theorem loggedMetrics (kind : AlgKind) (table : List LogEntry) (rows : List (List String)) :
    table.foldlM (Appending.append (entryRows pd kind)) rows = .ok (rows ++ table.flatMap LogEntry.meant) ↔
      ∀ entry ∈ table, entry.Plain := by
  induction table generalizing rows with
  | nil =>
    rw [List.flatMap_nil, List.append_nil]
    exact ⟨fun _ entry member => (nomatch member), fun _ => rfl⟩
  | cons entry table ih =>
    rw [List.forall_mem_cons, List.flatMap_cons]
    cases entry with
    | blank line spaces =>
      rw [Appending.appendRaised (entryBlank pd kind spaces)]
      exact ⟨nofun, fun both => both.1.elim⟩
    | logged row =>
      rw [Appending.appendGiven (entryLogged pd kind row)]
      cases start : startsTable row.line with
      | true =>
        -- the row is left out, and the rows to come cannot make up for it
        refine ⟨fun parsed => ?_, fun both => absurd (both.1.symm.trans start) Bool.false_ne_true⟩
        have bound := metricsBounded parsed
        simp only [if_true, List.append_nil, List.length_append, show (LogEntry.logged row).meant.length = 1 from rfl] at bound
        omega
      | false =>
        rw [if_neg Bool.false_ne_true, ← List.append_assoc]
        exact (ih (rows ++ [row.meant])).trans ⟨fun rest => ⟨start, rest⟩, And.right⟩

theorem speedLogParsed (pd : DataFrames) (kind : AlgKind) (log : SpeedLog) :
    getSpeedMetrics pd kind log.lines = .ok log.rows ↔ ∀ entry ∈ log.table, entry.Plain := by
  rw [getSpeedMetricsEntries]
  exact loggedMetrics pd kind log.table []

def loggedMlKem : LoggedRow where
  line := "ML-KEM-768  0.000030s 0.000027s 0.000034s 33333.0 37037.0 29411.8"
  name := "ML-KEM-768"
  cells := [("0.000030", true), ("0.000027", true), ("0.000034", true), ("33333.0", false), ("37037.0", false),
    ("29411.8", false)]
  words := by decide +kernel
  six := rfl
  numeric := by decide

def mlKemLog : SpeedLog where
  preamble := ["version: 3.5.0"]
  free := by decide
  header := "                    keygen    encaps    decaps keygens/s  encaps/s  decaps/s"
  starts := by decide
  table := [.logged loggedMlKem]

theorem speedLogParsedOne : getSpeedMetrics plainFrames .kem mlKemLog.lines = .ok mlKemLog.rows :=
  (speedLogParsed plainFrames .kem mlKemLog).mpr (List.forall_mem_singleton.mpr (by unfold LogEntry.Plain; decide))

def blankEnded : SpeedLog where
  preamble := ["version: 3.5.0"]
  free := by decide
  header := "                    keygen    encaps    decaps keygens/s  encaps/s  decaps/s"
  starts := by decide
  table := [.logged loggedMlKem, .blank "\n" (by decide)]

theorem blankLineRaises : getSpeedMetrics plainFrames .kem blankEnded.lines = .error ⟨7, 0⟩ ∧
    ¬ ∀ (pd : DataFrames) (kind : AlgKind) (log : SpeedLog), getSpeedMetrics pd kind log.lines = .ok log.rows := by
  have raised : getSpeedMetrics plainFrames .kem blankEnded.lines = .error ⟨7, 0⟩ := by
    rw [getSpeedMetricsEntries, blankEnded, Appending.appendGiven (entryLogged plainFrames .kem loggedMlKem),
      Appending.appendRaised (entryBlank plainFrames .kem _)]
  exact ⟨raised, fun parsed => nomatch raised.symm.trans (parsed plainFrames .kem blankEnded)⟩

end Armor.Results
