import Armor.Lib.Text
import Armor.Results.ComputationalAverages
import Armor.Results.HandshakeMetrics

/-! `memory_processing`: the memory tables of every run, from one massif output per algorithm,
operation and run. A file is the list of its lines, `none` where it cannot be read; its numbers
are in ASCII digits, as massif writes them. -/
namespace Armor.Results
open Text (split startsWith)

/-- The number of the leftmost match of `\d+ \(peak\)`. -/
def peakSearch : List Char → Option Nat
  | [] => none
  | c :: rest =>
    let digits := (c :: rest).takeWhile Char.isDigit
    if digits ≠ [] ∧ " (peak)".toList.isPrefixOf ((c :: rest).dropWhile Char.isDigit) = true then
      some (Nat.ofDigitChars 10 digits 0)
    else peakSearch rest

def headerPeak (line : String) : Option Nat :=
  if startsWith line " Detailed snapshots: [" then peakSearch line.toList else none

/-- `'{: >3d}'.format(peak)` of a positive peak. -/
def paddedThree (peak : Int) : String :=
  let digits := peak.toNat.repr.toList
  String.ofList (List.replicate (3 - digits.length) ' ' ++ digits)

def isPeakLine (peak : Int) (line : String) : Bool := decide (0 < peak) && startsWith line (paddedThree peak)

def snapshotMetrics (line : String) : Row := (split (String.ofList (line.toList.filter (· ≠ ',')))).tail

def scanPeak : Int → List String → Option Row
  | _, [] => none
  | peak, line :: rest =>
    let peak := ((headerPeak line).map Int.ofNat).getD peak
    if isPeakLine peak line then some (snapshotMetrics line) else scanPeak peak rest

/-- The list passed to the function is never read. -/
def getPeak (lines : List String) : Option Row := scanPeak (-1) lines

def checkDataMismatch (dfLen algListLen : Nat) : Bool := dfLen ≠ algListLen * 3

theorem checkPasses {dfLen algListLen : Nat} (same : dfLen = algListLen * 3) : ¬ checkDataMismatch dfLen algListLen = true :=
  fun exits => of_decide_eq_true exits same

inductive AlgKind where
  | kem
  | sig
  deriving DecidableEq, Repr

def AlgKind.operations : AlgKind → List String
  | .kem => kemOperations
  | .sig => sigOperations

/-- `range(1, len(fieldnames) - 2)` against `range(0, len(fieldnames) - 2)`. -/
def AlgKind.blankMetrics : AlgKind → Row
  | .kem => List.replicate (7 - 2 - 1) ""
  | .sig => List.replicate (7 - 2) ""

def AlgKind.metricsFile (kind : AlgKind) (run : Nat) : String :=
  match kind with
  | .kem => "kem_mem_metrics_" ++ run.repr ++ ".csv"
  | .sig => "sig_mem_metrics_" ++ run.repr ++ ".csv"

def AlgKind.algs (kemAlgs sigAlgs : List String) : AlgKind → List String
  | .kem => kemAlgs
  | .sig => sigAlgs

def massifFile (alg : String) (operation run : Nat) : String :=
  alg ++ "_" ++ operation.repr ++ "_" ++ run.repr ++ ".txt"

def AlgKind.label (kind : AlgKind) (alg : String) (operation : Nat) : Row := [alg, kind.operations.getD operation ""]

structure MemFrame where
  newRow : Row
  rows : List Row

/-- The `try` block: an unreadable file raises before the row is extended, a row of another length than the
columns when it is set. -/
def memoryRow (pd : DataFrames) (kind : AlgKind) (frame : MemFrame) (alg : String) (operation : Nat)
    (file : Option (List String)) : MemFrame :=
  match file with
  | none => frame
  | some lines =>
    let newRow := frame.newRow ++ kind.label alg operation ++ (getPeak lines).getD kind.blankMetrics
    match pd.setRow 7 frame.rows newRow with
    | some rows => ⟨[], rows⟩
    | none => ⟨newRow, frame.rows⟩

def memoryTable (pd : DataFrames) (kind : AlgKind) (newRow : Row) (algs : List String)
    (file : String → Nat → Option (List String)) : MemFrame :=
  algs.foldl (fun frame alg => (List.range 3).foldl
    (fun frame operation => memoryRow pd kind frame alg operation (file alg operation)) frame) ⟨newRow, []⟩

structure MemProgress where
  newRow : Row
  written : List (String × List Row)
  exited : Bool

def memoryHalf (pd : DataFrames) (kemAlgs sigAlgs : List String)
    (files : AlgKind → String → Option (List String)) (progress : MemProgress)
    (half : AlgKind × Nat) : MemProgress :=
  if progress.exited then progress
  else
    let algs := half.1.algs kemAlgs sigAlgs
    let frame := memoryTable pd half.1 progress.newRow algs fun alg operation => files half.1 (massifFile alg operation half.2)
    if checkDataMismatch frame.rows.length algs.length then ⟨frame.newRow, progress.written, true⟩
    else ⟨frame.newRow, progress.written ++ [(half.1.metricsFile half.2, frame.rows)], false⟩

def memoryProcessing (pd : DataFrames) (numRuns : Nat) (kemAlgs sigAlgs : List String)
    (files : AlgKind → String → Option (List String)) : MemProgress :=
  (runs numRuns).foldl (fun progress run =>
    memoryHalf pd kemAlgs sigAlgs files (memoryHalf pd kemAlgs sigAlgs files progress (.kem, run)) (.sig, run)) ⟨[], [], false⟩

def peakInForce (lines : List String) : Int := ((lines.filterMap headerPeak).getLast?.map Int.ofNat).getD (-1)

def isSnapshot (before : List String) (line : String) : Bool := isPeakLine (peakInForce (before ++ [line])) line

def NoPeak (lines : List String) : Prop :=
  ∀ before line after, lines = before ++ line :: after → isSnapshot before line = false

def HasPeak (lines : List String) (metrics : Row) : Prop :=
  ∃ before line after, lines = before ++ line :: after ∧ NoPeak before ∧ isSnapshot before line = true ∧
    metrics = snapshotMetrics line

theorem peakInForceNext (before : List String) (line : String) :
    peakInForce (before ++ [line]) = ((headerPeak line).map Int.ofNat).getD (peakInForce before) := by
  unfold peakInForce
  cases header : headerPeak line with
  | none => simp only [List.filterMap_append, List.filterMap_cons, header, List.filterMap_nil, List.append_nil,
      Option.map_none, Option.getD_none]
  | some peak => simp only [List.filterMap_append, List.filterMap_cons, header, List.filterMap_nil,
      List.getLast?_append, List.getLast?_singleton, Option.some_or, Option.map_some, Option.getD_some]

theorem noPeakNext (before : List String) (line : String) :
    NoPeak (before ++ [line]) ↔ NoPeak before ∧ isSnapshot before line = false := by
  constructor
  · intro none_
    refine ⟨fun earlier other later split => ?_, none_ before line [] rfl⟩
    exact none_ earlier other (later ++ [line]) (by rw [split, List.append_assoc, List.cons_append])
  · rintro ⟨none_, last⟩ earlier other later same
    cases List.eq_nil_or_concat later with
    | inl nothing =>
      subst nothing
      obtain ⟨rfl, single⟩ := List.append_inj' same rfl
      cases single
      exact last
    | inr some_ =>
      obtain ⟨more, final, rfl⟩ := some_
      rw [List.concat_eq_append, ← List.cons_append, ← List.append_assoc] at same
      exact none_ earlier other more (List.append_inj' same rfl).1

theorem noPeakNil : NoPeak [] := by
  intro before line after same
  cases List.append_eq_nil_iff.mp same.symm with
  | intro _ nothing => cases nothing

theorem scanSkips {passed before : List String} (none_ : NoPeak (passed ++ before)) (rest : List String) :
    scanPeak (peakInForce passed) (before ++ rest) = scanPeak (peakInForce (passed ++ before)) rest := by
  induction before generalizing passed with
  | nil => rw [List.append_nil, List.nil_append]
  | cons line before ih =>
    have here := none_ passed line before rfl
    rw [List.append_cons] at none_
    rw [List.cons_append, scanPeak, ← peakInForceNext]
    change isPeakLine (peakInForce (passed ++ [line])) line = false at here
    rw [here, if_neg Bool.false_ne_true, ih none_, ← List.append_cons passed line before]

theorem getPeakFound {lines : List String} {metrics : Row} (peak : HasPeak lines metrics) : getPeak lines = some metrics := by
  obtain ⟨before, line, after, rfl, none_, here, rfl⟩ := peak
  have skipped := @scanSkips [] before none_ (line :: after)
  change isPeakLine (peakInForce (before ++ [line])) line = true at here
  change getPeak (before ++ line :: after) = _ at skipped
  rw [skipped, List.nil_append, scanPeak, ← peakInForceNext, here, if_pos rfl]

theorem getPeakNone {lines : List String} (none_ : NoPeak lines) : getPeak lines = none := by
  have skipped := @scanSkips [] lines none_ []
  rwa [List.append_nil] at skipped

theorem peakOrNone (lines : List String) : NoPeak lines ∨ ∃ metrics, HasPeak lines metrics := by
  induction lines using List.reverseRecOn with
  | nil => exact .inl noPeakNil
  | append_singleton lines line ih =>
    cases ih with
    | inl none_ =>
      cases here : isSnapshot lines line with
      | true => exact .inr ⟨_, lines, line, [], rfl, none_, here, rfl⟩
      | false => exact .inl ((noPeakNext lines line).mpr ⟨none_, here⟩)
    | inr found =>
      obtain ⟨metrics, before, first, after, rfl, peak⟩ := found
      exact .inr ⟨metrics, before, first, after ++ [line], by rw [List.append_assoc, List.cons_append], peak⟩

structure RowFor (kind : AlgKind) (alg : String) (operation : Nat) (file : Option (List String)) (row : Row) : Prop where
  label : row.take 2 = kind.label alg operation
  metrics : ∀ lines metrics, file = some lines → HasPeak lines metrics → metrics.length = 5 → row.drop 2 = metrics
  blank : ∀ lines, file = some lines → NoPeak lines → row.drop 2 = blanks

def algOperations (algs : List String) : List (String × Nat) :=
  algs.flatMap fun alg => (List.range 3).map fun operation => (alg, operation)

def halves (numRuns : Nat) : List (AlgKind × Nat) := (runs numRuns).flatMap fun run => [(.kem, run), (.sig, run)]

def TableFor (kemAlgs sigAlgs : List String) (files : AlgKind → String → Option (List String)) (half : AlgKind × Nat)
    (entry : String × List Row) : Prop :=
  entry.1 = half.1.metricsFile half.2 ∧ List.Forall₂ (fun item row =>
    RowFor half.1 item.1 item.2 (files half.1 (massifFile item.1 item.2 half.2)) row)
      (algOperations (half.1.algs kemAlgs sigAlgs)) entry.2

/-- Every table of every run is written, with a row from its own file for each algorithm and operation. -/
def MemoryFaithful (pd : DataFrames) (numRuns : Nat) (kemAlgs sigAlgs : List String)
    (files : AlgKind → String → Option (List String)) : Prop :=
  (memoryProcessing pd numRuns kemAlgs sigAlgs files).exited = false ∧
    List.Forall₂ (TableFor kemAlgs sigAlgs files) (halves numRuns) (memoryProcessing pd numRuns kemAlgs sigAlgs files).written

/-- A file with a peak of five metrics, or a signature's file without a peak. -/
def FileFits (kind : AlgKind) (file : Option (List String)) : Prop :=
  ∃ lines, file = some lines ∧ ((∃ metrics, HasPeak lines metrics ∧ metrics.length = 5) ∨ (kind = .sig ∧ NoPeak lines))

def memoryCells (kind : AlgKind) (file : Option (List String)) : Row :=
  (file.bind getPeak).getD kind.blankMetrics

theorem labelTwo (kind : AlgKind) (alg : String) (operation : Nat) : (kind.label alg operation).length = 2 := rfl

theorem fitsIff (kind : AlgKind) (file : Option (List String)) :
    FileFits kind file ↔ file.isSome = true ∧ (memoryCells kind file).length = 5 := by
  cases file with
  | none =>
    constructor
    · rintro ⟨lines, same, -⟩
      cases same
    · rintro ⟨same, -⟩
      cases same
  | some lines =>
    cases peakOrNone lines with
    | inl none_ =>
      have cells : memoryCells kind (some lines) = kind.blankMetrics := by
        rw [memoryCells, Option.bind_some, getPeakNone none_]
        rfl
      rw [cells]
      constructor
      · rintro ⟨_, ⟨⟩, ⟨metrics, peak, -⟩ | ⟨rfl, -⟩⟩
        · cases (getPeakNone none_).symm.trans (getPeakFound peak)
        · exact ⟨rfl, rfl⟩
      · rintro ⟨-, five⟩
        cases kind with
        | kem => cases five
        | sig => exact ⟨lines, rfl, .inr ⟨rfl, none_⟩⟩
    | inr found =>
      obtain ⟨metrics, peak⟩ := found
      have cells : memoryCells kind (some lines) = metrics := by
        rw [memoryCells, Option.bind_some, getPeakFound peak]
        rfl
      rw [cells]
      constructor
      · rintro ⟨_, ⟨⟩, ⟨other, peak', five⟩ | ⟨-, none_⟩⟩
        · cases (getPeakFound peak).symm.trans (getPeakFound peak')
          exact ⟨rfl, five⟩
        · cases (getPeakNone none_).symm.trans (getPeakFound peak)
      · rintro ⟨-, five⟩
        exact ⟨lines, rfl, .inl ⟨metrics, peak, five⟩⟩

theorem rowOfFits {kind : AlgKind} {file : Option (List String)} (fits : FileFits kind file) (alg : String) (operation : Nat) :
    RowFor kind alg operation file (kind.label alg operation ++ memoryCells kind file) := by
  constructor
  · rfl
  · rintro lines metrics rfl peak -
    change memoryCells kind (some lines) = metrics
    rw [memoryCells, Option.bind_some, getPeakFound peak]
    rfl
  · rintro lines rfl none_
    change memoryCells kind (some lines) = blanks
    obtain ⟨_, ⟨⟩, ⟨metrics, peak, -⟩ | ⟨rfl, -⟩⟩ := fits
    · cases (getPeakNone none_).symm.trans (getPeakFound peak)
    · rw [memoryCells, Option.bind_some, getPeakNone none_]
      rfl

section Rows

variable {pd : DataFrames}

theorem memoryRowFits {kind : AlgKind} {file : Option (List String)} (fits : FileFits kind file) (rows : List Row)
    (alg : String) (operation : Nat) :
    memoryRow pd kind ⟨[], rows⟩ alg operation file = ⟨[], rows ++ [kind.label alg operation ++ memoryCells kind file]⟩ := by
  obtain ⟨some_, five⟩ := (fitsIff kind file).mp fits
  cases file with
  | none => cases some_
  | some lines =>
    have seven : ([] ++ kind.label alg operation ++ (getPeak lines).getD kind.blankMetrics).length = 7 := by
      rw [List.nil_append, List.length_append, labelTwo]
      exact congrArg (2 + ·) five
    rw [memoryRow]
    dsimp only
    rw [pd.setRowFits 7 rows _ seven]
    rfl

theorem memoryRowMisfits {kind : AlgKind} {file : Option (List String)} (misfits : ¬ FileFits kind file) (rows : List Row)
    (alg : String) (operation : Nat) : (memoryRow pd kind ⟨[], rows⟩ alg operation file).rows = rows := by
  rw [fitsIff] at misfits
  cases file with
  | none => rfl
  | some lines =>
    have other : ¬ ([] ++ kind.label alg operation ++ (getPeak lines).getD kind.blankMetrics).length = 7 := by
      intro seven
      rw [List.nil_append, List.length_append, labelTwo] at seven
      change 2 + (memoryCells kind (some lines)).length = 2 + 5 at seven
      exact misfits ⟨rfl, Nat.add_left_cancel seven⟩
    rw [memoryRow]
    dsimp only
    rw [pd.setRowMisfits 7 rows _ other]

theorem memoryRowGrows (kind : AlgKind) (frame : MemFrame) (alg : String) (operation : Nat) (file : Option (List String)) :
    (memoryRow pd kind frame alg operation file).rows.length ≤ frame.rows.length + 1 := by
  unfold memoryRow
  split
  · exact Nat.le_succ _
  · next lines =>
    dsimp only
    generalize frame.newRow ++ kind.label alg operation ++ (getPeak lines).getD kind.blankMetrics = newRow
    by_cases seven : newRow.length = 7
    · rw [pd.setRowFits 7 frame.rows newRow seven, List.length_append, List.length_singleton]
    · rw [pd.setRowMisfits 7 frame.rows newRow seven]
      exact Nat.le_succ _

end Rows

section Table

variable (pd : DataFrames) (kind : AlgKind) (file : String → Nat → Option (List String))

def tableStep (frame : MemFrame) (item : String × Nat) : MemFrame := memoryRow pd kind frame item.1 item.2 (file item.1 item.2)

def ownRow (item : String × Nat) : Row := kind.label item.1 item.2 ++ memoryCells kind (file item.1 item.2)

theorem memoryTableFolds (newRow : Row) (algs : List String) :
    memoryTable pd kind newRow algs file = (algOperations algs).foldl (tableStep pd kind file) ⟨newRow, []⟩ := by
  rw [memoryTable, algOperations, List.foldl_flatMap]
  simp only [List.foldl_map, tableStep]

theorem tableGrows (items : List (String × Nat)) (frame : MemFrame) :
    (items.foldl (tableStep pd kind file) frame).rows.length ≤ frame.rows.length + items.length := by
  induction items generalizing frame with
  | nil => exact Nat.le_refl _
  | cons item items ih =>
    have first := @memoryRowGrows pd kind frame item.1 item.2 (file item.1 item.2)
    have later := ih (tableStep pd kind file frame item)
    change (memoryRow pd kind frame item.1 item.2 (file item.1 item.2)).rows.length ≤ _ at first
    rw [List.foldl_cons, List.length_cons]
    unfold tableStep at later ⊢
    omega

theorem tableFits {items : List (String × Nat)} (fits : ∀ item ∈ items, FileFits kind (file item.1 item.2)) (rows : List Row) :
    items.foldl (tableStep pd kind file) ⟨[], rows⟩ = ⟨[], rows ++ items.map (ownRow kind file)⟩ := by
  induction items generalizing rows with
  | nil => rw [List.foldl_nil, List.map_nil, List.append_nil]
  | cons item items ih =>
    obtain ⟨first, later⟩ := List.forall_mem_cons.mp fits
    rw [List.foldl_cons, tableStep, memoryRowFits first, ih later, List.append_assoc]
    rfl

theorem tableMisfits {items : List (String × Nat)} (misfits : ¬ ∀ item ∈ items, FileFits kind (file item.1 item.2))
    (rows : List Row) : (items.foldl (tableStep pd kind file) ⟨[], rows⟩).rows.length < rows.length + items.length := by
  induction items generalizing rows with
  | nil => exact absurd (fun item member => nomatch member) misfits
  | cons item items ih =>
    rw [List.foldl_cons, List.length_cons, tableStep]
    by_cases first : FileFits kind (file item.1 item.2)
    · have later := ih (fun rest => misfits (List.forall_mem_cons.mpr ⟨first, rest⟩))
        (rows ++ [kind.label item.1 item.2 ++ memoryCells kind (file item.1 item.2)])
      rw [List.length_append, List.length_singleton] at later
      rw [memoryRowFits first]
      omega
    · have none_ := @memoryRowMisfits pd kind _ first rows item.1 item.2
      have later := tableGrows pd kind file items (memoryRow pd kind ⟨[], rows⟩ item.1 item.2 (file item.1 item.2))
      rw [none_] at later
      omega

end Table

theorem algOperationsLength (algs : List String) : (algOperations algs).length = algs.length * 3 := by
  unfold algOperations
  rw [List.length_flatMap]
  simp only [List.length_map, List.length_range, List.map_const', List.sum_replicate_nat]

section Runs

variable (pd : DataFrames) (kemAlgs sigAlgs : List String) (files : AlgKind → String → Option (List String))

def halfFile (half : AlgKind × Nat) (alg : String) (operation : Nat) : Option (List String) :=
  files half.1 (massifFile alg operation half.2)

def HalfFits (half : AlgKind × Nat) : Prop :=
  ∀ item ∈ algOperations (half.1.algs kemAlgs sigAlgs), FileFits half.1 (halfFile files half item.1 item.2)

def ownTable (half : AlgKind × Nat) : String × List Row :=
  (half.1.metricsFile half.2, (algOperations (half.1.algs kemAlgs sigAlgs)).map (ownRow half.1 (halfFile files half)))

theorem processingFolds (numRuns : Nat) : memoryProcessing pd numRuns kemAlgs sigAlgs files =
    (halves numRuns).foldl (memoryHalf pd kemAlgs sigAlgs files) ⟨[], [], false⟩ := by
  rw [memoryProcessing, halves, List.foldl_flatMap]
  rfl

variable {pd kemAlgs sigAlgs files}

theorem memoryHalfRuns (half : AlgKind × Nat) (written : List (String × List Row)) :
    memoryHalf pd kemAlgs sigAlgs files ⟨[], written, false⟩ half =
      let algs := half.1.algs kemAlgs sigAlgs
      let frame := (algOperations algs).foldl (tableStep pd half.1 (halfFile files half)) ⟨[], []⟩
      if checkDataMismatch frame.rows.length algs.length then ⟨frame.newRow, written, true⟩
      else ⟨frame.newRow, written ++ [(half.1.metricsFile half.2, frame.rows)], false⟩ := by
  rw [memoryHalf, if_neg Bool.false_ne_true]
  dsimp only
  rw [← memoryTableFolds]
  rfl

theorem halfOfFits {half : AlgKind × Nat} (fits : HalfFits kemAlgs sigAlgs files half) (written : List (String × List Row)) :
    memoryHalf pd kemAlgs sigAlgs files ⟨[], written, false⟩ half =
      ⟨[], written ++ [ownTable kemAlgs sigAlgs files half], false⟩ := by
  have full : ((algOperations (half.1.algs kemAlgs sigAlgs)).map (ownRow half.1 (halfFile files half))).length =
      (half.1.algs kemAlgs sigAlgs).length * 3 := by
    rw [List.length_map, algOperationsLength]
  rw [memoryHalfRuns]
  dsimp only
  rw [tableFits pd half.1 (halfFile files half) fits, List.nil_append]
  exact if_neg (checkPasses full)

theorem halfOfMisfits {half : AlgKind × Nat} (misfits : ¬ HalfFits kemAlgs sigAlgs files half)
    (written : List (String × List Row)) : (memoryHalf pd kemAlgs sigAlgs files ⟨[], written, false⟩ half).exited = true := by
  have short := tableMisfits pd half.1 (halfFile files half) misfits []
  rw [algOperationsLength, List.length_nil, Nat.zero_add] at short
  rw [memoryHalfRuns]
  exact congrArg MemProgress.exited (if_pos (decide_eq_true (Nat.ne_of_lt short)))

theorem halvesOfFits {list : List (AlgKind × Nat)} (fits : ∀ half ∈ list, HalfFits kemAlgs sigAlgs files half)
    (written : List (String × List Row)) : list.foldl (memoryHalf pd kemAlgs sigAlgs files) ⟨[], written, false⟩ =
      ⟨[], written ++ list.map (ownTable kemAlgs sigAlgs files), false⟩ := by
  induction list generalizing written with
  | nil => rw [List.foldl_nil, List.map_nil, List.append_nil]
  | cons half list ih =>
    obtain ⟨first, later⟩ := List.forall_mem_cons.mp fits
    rw [List.foldl_cons, halfOfFits first, ih later, List.append_assoc]
    rfl

theorem exitedStays (list : List (AlgKind × Nat)) {progress : MemProgress} (exited : progress.exited = true) :
    list.foldl (memoryHalf pd kemAlgs sigAlgs files) progress = progress := by
  induction list with
  | nil => rfl
  | cons half list ih =>
    have stays : memoryHalf pd kemAlgs sigAlgs files progress half = progress := by
      rw [memoryHalf, if_pos exited]
    rw [List.foldl_cons, stays, ih]

theorem halvesOfMisfits {list : List (AlgKind × Nat)} (misfits : ¬ ∀ half ∈ list, HalfFits kemAlgs sigAlgs files half)
    (written : List (String × List Row)) :
    (list.foldl (memoryHalf pd kemAlgs sigAlgs files) ⟨[], written, false⟩).exited = true := by
  induction list generalizing written with
  | nil => exact absurd (fun half member => nomatch member) misfits
  | cons half list ih =>
    rw [List.foldl_cons]
    by_cases first : HalfFits kemAlgs sigAlgs files half
    · rw [halfOfFits first]
      exact ih (fun rest => misfits (List.forall_mem_cons.mpr ⟨first, rest⟩)) _
    · rw [exitedStays list (halfOfMisfits first written)]
      exact halfOfMisfits first written

theorem ownTableFor {half : AlgKind × Nat} (fits : HalfFits kemAlgs sigAlgs files half) :
    TableFor kemAlgs sigAlgs files half (ownTable kemAlgs sigAlgs files half) := by
  refine ⟨rfl, List.forall₂_map_right_iff.mpr (List.forall₂_same.mpr fun item member => ?_)⟩
  exact rowOfFits (fits item member) item.1 item.2

end Runs

theorem memoryResults (pd : DataFrames) (numRuns : Nat) (kemAlgs sigAlgs : List String)
    (files : AlgKind → String → Option (List String)) :
    MemoryFaithful pd numRuns kemAlgs sigAlgs files ↔ ∀ run ∈ runs numRuns, ∀ kind : AlgKind,
      ∀ alg ∈ kind.algs kemAlgs sigAlgs, ∀ operation < 3, FileFits kind (files kind (massifFile alg operation run)) := by
  have condition : (∀ half ∈ halves numRuns, HalfFits kemAlgs sigAlgs files half) ↔ ∀ run ∈ runs numRuns, ∀ kind : AlgKind,
      ∀ alg ∈ kind.algs kemAlgs sigAlgs, ∀ operation < 3, FileFits kind (files kind (massifFile alg operation run)) := by
    constructor
    · intro fits run runIn kind alg algIn operation small
      have half : (kind, run) ∈ halves numRuns := by
        refine List.mem_flatMap.mpr ⟨run, runIn, ?_⟩
        cases kind with
        | kem => exact List.mem_cons_self
        | sig => exact List.mem_cons_of_mem _ List.mem_cons_self
      have item : (alg, operation) ∈ algOperations (kind.algs kemAlgs sigAlgs) :=
        List.mem_flatMap.mpr ⟨alg, algIn, List.mem_map_of_mem (List.mem_range.mpr small)⟩
      exact fits (kind, run) half (alg, operation) item
    · intro fits half halfIn item itemIn
      obtain ⟨run, runIn, halfIn⟩ := List.mem_flatMap.mp halfIn
      obtain ⟨alg, algIn, itemIn⟩ := List.mem_flatMap.mp itemIn
      obtain ⟨operation, small, rfl⟩ := List.mem_map.mp itemIn
      have runSame : half.2 = run := by
        rcases List.mem_pair.mp halfIn with rfl | rfl <;> rfl
      rw [halfFile, runSame]
      exact fits run runIn half.1 alg algIn operation (List.mem_range.mp small)
  rw [← condition, MemoryFaithful, processingFolds]
  constructor
  · rintro ⟨running, -⟩
    by_contra misfits
    rw [halvesOfMisfits misfits []] at running
    cases running
  · intro fits
    rw [halvesOfFits fits []]
    refine ⟨rfl, List.forall₂_map_right_iff.mpr (List.forall₂_same.mpr fun half member => ?_)⟩
    exact ownTableFor (fits half member)

def massifLines : List String :=
  ["Number of snapshots: 6", " Detailed snapshots: [1, 4 (peak)]", "",
    "  1         97,204        1,200          900        100        200",
    "  4      1,048,576       12,344       10,000        344      2,000",
    "  5      2,000,001            0            0          0          0"]

theorem massifPeak : getPeak massifLines = some ["1048576", "12344", "10000", "344", "2000"] := by decide +kernel

theorem massifFits (kind : AlgKind) : FileFits kind (some massifLines) := by
  refine (fitsIff kind _).mpr ⟨rfl, ?_⟩
  rw [memoryCells, Option.bind_some, massifPeak]
  rfl

theorem memoryResultsTwoRuns : MemoryFaithful plainFrames 2 ["ML-KEM-512", "ML-KEM-768"] ["ML-DSA-44"] fun _ _ => some massifLines :=
  (memoryResults plainFrames 2 ["ML-KEM-512", "ML-KEM-768"] ["ML-DSA-44"] fun _ _ => some massifLines).mpr
    fun _ _ kind _ _ _ _ => massifFits kind

def peaklessFirst (_kind : AlgKind) (name : String) : Option (List String) :=
  some (if name = "ML-KEM-512_0_1.txt" then ["Number of snapshots: 0"] else massifLines)

theorem memoryResultsFail : ¬ ∀ pd numRuns kemAlgs sigAlgs files, MemoryFaithful pd numRuns kemAlgs sigAlgs files := by
  intro faithful
  have exits : (memoryProcessing plainFrames 1 ["ML-KEM-512", "ML-KEM-768"] ["ML-DSA-44"] peaklessFirst).exited = true := by
    decide +kernel
  have running := (faithful plainFrames 1 ["ML-KEM-512", "ML-KEM-768"] ["ML-DSA-44"] peaklessFirst).1
  rw [exits] at running
  cases running

end Armor.Results
