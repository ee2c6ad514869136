import Armor.Lib.Recording
import Armor.Lib.Decimal
import Armor.Results.SpeedResults
import Mathlib.Data.List.ProdSigma

/-! The computational tests from the outputs of the binaries to the averages: `mem_tests` and
`speed_tests` write one file per measurement, the parser reads the files back, and the averager
combines the tables of all runs. -/
namespace Armor.Results
open Recording (record recordAll)
open Text (strip)

structure MemTest where
  kind : AlgKind
  alg : String
  operation : Nat
  run : Nat
  deriving DecidableEq

def MemTest.filename (test : MemTest) : AlgKind × String := (test.kind, massifFile test.alg test.operation test.run)

abbrev MemFiles := AlgKind × String → Option (List String)

-- `print`: the lines that `ms_print` makes of a measurement
def memOperations (print : MemTest → List String) (kind : AlgKind) (run : Nat) (files : MemFiles) (alg : String) : MemFiles :=
  (List.range 3).foldl (fun files operation =>
    let test : MemTest := ⟨kind, alg, operation, run⟩
    record files (test.filename, print test)) files

def memTests (print : MemTest → List String) (numRuns : Nat) (kemAlgs sigAlgs : List String) (files : MemFiles) : MemFiles :=
  (runs numRuns).foldl (fun files run =>
    let kems := kemAlgs.foldl (memOperations print .kem run) files
    sigAlgs.foldl (memOperations print .sig run) kems) files

def speedTests {ρ : Type} (print : AlgKind → Nat → List (SpeedLine ρ)) (numRuns : Nat)
    (files : String → Option (List (SpeedLine ρ))) : String → Option (List (SpeedLine ρ)) :=
  (runs numRuns).foldl (fun files run =>
    record (record files (AlgKind.kem.speedFilename run, print .kem run)) (AlgKind.sig.speedFilename run, print .sig run)) files

theorem numeralInj {before before' : List Char} {n n' : Nat} {mark : Char} (other : mark.isDigit = false)
    (same : before ++ [mark] ++ n.repr.toList = before' ++ [mark] ++ n'.repr.toList) : before = before' ∧ n = n' := by
  have turned := congrArg List.reverse same
  simp only [List.reverse_append, List.reverse_singleton, List.singleton_append] at turned
  have numeral : ∀ (m : Nat) (rest : List Char),
      (m.repr.toList.reverse ++ mark :: rest).takeWhile Char.isDigit = m.repr.toList.reverse ∧
        (m.repr.toList.reverse ++ mark :: rest).dropWhile Char.isDigit = mark :: rest := by
    intro m rest
    have digits : ∀ c ∈ m.repr.toList.reverse, c.isDigit = true := fun c member => by
      rw [List.mem_reverse, Nat.toList_repr] at member
      exact Nat.isDigit_of_mem_toDigits (by decide) (by decide) member
    have stops : ¬ mark.isDigit = true := ne_true_of_eq_false other
    rw [List.takeWhile_append_of_pos digits, List.dropWhile_append_of_pos digits, List.takeWhile_cons_of_neg stops,
      List.dropWhile_cons_of_neg stops, List.append_nil]
    exact ⟨rfl, rfl⟩
  have digits := congrArg (List.takeWhile Char.isDigit) turned
  have rest := congrArg (List.dropWhile Char.isDigit) turned
  rw [(numeral _ _).1, (numeral _ _).1] at digits
  rw [(numeral _ _).2, (numeral _ _).2] at rest
  exact ⟨List.reverse_injective (List.cons.inj rest).2,
    Decimal.reprInj (String.toList_injective (List.reverse_injective digits))⟩

theorem massifFileInj {alg alg' : String} {operation operation' run run' : Nat}
    (same : massifFile alg operation run = massifFile alg' operation' run') : alg = alg' ∧ operation = operation' ∧ run = run' := by
  have chars := congrArg String.toList same
  simp only [massifFile, String.toList_append] at chars
  obtain ⟨inner, runSame⟩ := @numeralInj _ _ _ _ '_' rfl (List.append_cancel_right chars)
  obtain ⟨names, operationSame⟩ := @numeralInj _ _ _ _ '_' rfl inner
  exact ⟨String.toList_injective names, operationSame, runSame⟩

theorem MemTest.filenameInj {test other : MemTest} (same : test.filename = other.filename) : test = other := by
  obtain ⟨kind, alg, operation, run⟩ := test
  obtain ⟨kind', alg', operation', run'⟩ := other
  obtain ⟨rfl, names⟩ := Prod.mk.inj same
  obtain ⟨rfl, rfl, rfl⟩ := massifFileInj names
  rfl

theorem kindFileInj {name : AlgKind → Nat → String} {kem sig after : String}
    (kemName : ∀ run, name .kem run = kem ++ run.repr ++ after)
    (sigName : ∀ run, name .sig run = sig ++ run.repr ++ after) (apart : ¬ kem.toList <+: sig.toList ∧ ¬ sig.toList <+: kem.toList)
    {half other : AlgKind × Nat} (same : name half.1 half.2 = name other.1 other.2) : half = other := by
  have runSame : ∀ (start : String) (run run' : Nat), start ++ run.repr ++ after = start ++ run'.repr ++ after → run = run' := by
    intro start run run' same
    have chars := congrArg String.toList same
    simp only [String.toList_append] at chars
    have digits := List.append_cancel_left (List.append_cancel_right chars)
    exact Decimal.reprInj (String.toList_injective digits)
  have kinds : ∀ run run', name .kem run ≠ name .sig run' := by
    intro run run' same
    rw [kemName, sigName] at same
    have chars := congrArg String.toList same
    simp only [String.toList_append, List.append_assoc] at chars
    rcases List.append_eq_append_iff.mp chars with ⟨more, long, -⟩ | ⟨more, long, -⟩
    · exact apart.1 ⟨more, long.symm⟩
    · exact apart.2 ⟨more, long.symm⟩
  obtain ⟨kind, run⟩ := half
  obtain ⟨kind', run'⟩ := other
  cases kind with
  | kem =>
    cases kind' with
    | kem => rw [runSame kem run run' (by rw [← kemName, ← kemName]; exact same)]
    | sig => exact absurd same (kinds run run')
  | sig =>
    cases kind' with
    | kem => exact absurd same.symm (kinds run' run)
    | sig => rw [runSame sig run run' (by rw [← sigName, ← sigName]; exact same)]

theorem metricsFileInj {half other : AlgKind × Nat} (same : half.1.metricsFile half.2 = other.1.metricsFile other.2) :
    half = other :=
  kindFileInj (fun _ => rfl) (fun _ => rfl) (by decide) same

theorem speedFilenameInj {half other : AlgKind × Nat} (same : half.1.speedFilename half.2 = other.1.speedFilename other.2) :
    half = other :=
  kindFileInj (fun _ => rfl) (fun _ => rfl) (by decide) same

def memMeasurements (numRuns : Nat) (kemAlgs sigAlgs : List String) : List MemTest :=
  (halves numRuns).flatMap fun half =>
    (algOperations (half.1.algs kemAlgs sigAlgs)).map fun item => ⟨half.1, item.1, item.2, half.2⟩

theorem halvesNodup (numRuns : Nat) : (halves numRuns).Nodup := by
  rw [halves, List.nodup_flatMap]
  refine ⟨fun run _ => by simp, ?_⟩
  have distinct : (runs numRuns).Nodup := List.nodup_range'
  refine distinct.imp fun {run other} differ => ?_
  refine List.disjoint_iff_ne.mpr fun half member half' member' same => ?_
  have first : half.2 = run := by rcases List.mem_pair.mp member with rfl | rfl <;> rfl
  have second : half'.2 = other := by rcases List.mem_pair.mp member' with rfl | rfl <;> rfl
  exact differ (first.symm.trans ((congrArg Prod.snd same).trans second))

theorem algOperationsNodup {algs : List String} (distinct : algs.Nodup) : (algOperations algs).Nodup := by
  have pairs : algOperations algs = algs ×ˢ List.range 3 := rfl
  rw [pairs]
  exact distinct.product List.nodup_range

theorem memOperationsRecord (print : MemTest → List String) (kind : AlgKind) (run : Nat) (algs : List String) (files : MemFiles) :
    algs.foldl (memOperations print kind run) files = recordAll files ((algOperations algs).map fun item =>
      ((⟨kind, item.1, item.2, run⟩ : MemTest).filename, print ⟨kind, item.1, item.2, run⟩)) := by
  rw [recordAll, List.foldl_map, algOperations, List.foldl_flatMap]
  simp only [List.foldl_map]
  rfl

theorem memTestsRecord (print : MemTest → List String) (numRuns : Nat) (kemAlgs sigAlgs : List String) (files : MemFiles) :
    memTests print numRuns kemAlgs sigAlgs files =
      recordAll files ((memMeasurements numRuns kemAlgs sigAlgs).map fun test => (test.filename, print test)) := by
  rw [memTests, memMeasurements, halves, List.flatMap_assoc, recordAll, List.foldl_map, List.foldl_flatMap]
  refine congrFun (congrFun (congrArg List.foldl (funext fun files => funext fun run => ?_)) _) _
  rw [memOperationsRecord, memOperationsRecord, recordAll, recordAll]
  simp only [List.foldl_map, List.flatMap_cons, List.flatMap_nil, List.append_nil, List.foldl_append]
  rfl

section Memory

variable {print : MemTest → List String} {numRuns : Nat} {kemAlgs sigAlgs : List String} {files : MemFiles}

theorem memMeasurementsNodup (distinctKem : kemAlgs.Nodup) (distinctSig : sigAlgs.Nodup) :
    (memMeasurements numRuns kemAlgs sigAlgs).Nodup := by
  rw [memMeasurements, List.nodup_flatMap]
  constructor
  · intro half _
    have algs : (half.1.algs kemAlgs sigAlgs).Nodup := by
      cases half.1 with
      | kem => exact distinctKem
      | sig => exact distinctSig
    refine (algOperationsNodup algs).map fun item item' same => ?_
    injection same with _ alg operation _
    exact Prod.ext alg operation
  · refine (halvesNodup numRuns).imp fun {half other} differ => ?_
    refine List.disjoint_iff_ne.mpr fun test member test' member' same => ?_
    obtain ⟨item, -, rfl⟩ := List.mem_map.mp member
    obtain ⟨item', -, rfl⟩ := List.mem_map.mp member'
    injection same with kind _ _ run
    exact differ (Prod.ext kind run)

theorem memTestsKeep (distinctKem : kemAlgs.Nodup) (distinctSig : sigAlgs.Nodup) {test : MemTest}
    (listed : test ∈ memMeasurements numRuns kemAlgs sigAlgs) :
    memTests print numRuns kemAlgs sigAlgs files test.filename = some (print test) := by
  rw [memTestsRecord]
  have entry : (test.filename, print test) ∈ (memMeasurements numRuns kemAlgs sigAlgs).map fun test =>
    (test.filename, print test) :=
    List.mem_map_of_mem listed
  refine Recording.recordAllUnique ?_ entry
  rw [List.map_map]
  exact (memMeasurementsNodup distinctKem distinctSig).map fun _ _ same => MemTest.filenameInj same

end Memory

section Averages

variable {κ : Type} {algs operations : List String}

def completeTable (algs operations : List String) (cells : String → String → κ → Option Rat) : List (PerfRow κ) :=
  (algs ×ˢ operations).map fun key => ⟨key.1, key.2, cells key.1 key.2⟩

def meanRows (algs operations : List String) (columns : List κ) (numRuns : Nat) (cells : Nat → String → String → κ → Option Rat) :
    List AvgRow :=
  algs.flatMap fun alg => operations.map fun operation =>
    ⟨alg, operation, columns.map fun column => mean ((runs numRuns).filterMap fun run => cells run alg operation column)⟩

theorem completeOneRowEach (algs operations : List String) (cells : Nat → String → String → κ → Option Rat) :
    OneRowEach algs operations fun run => completeTable algs operations (cells run) := by
  intro run
  have keys : (completeTable algs operations (cells run)).map (fun row => (row.algorithm, row.operation)) = algs ×ˢ operations := by
    rw [completeTable, List.map_map]
    exact List.map_id _
  rw [keys]

theorem completeOwn (distinctAlgs : algs.Nodup) (distinctOperations : operations.Nodup)
    (cells : String → String → κ → Option Rat) {alg operation : String} (algIn : alg ∈ algs)
    (operationIn : operation ∈ operations) :
    (completeTable algs operations cells).filter (fun row => row.algorithm = alg ∧ row.operation = operation) =
      [⟨alg, operation, cells alg operation⟩] := by
  have key : (alg, operation) ∈ algs ×ˢ operations := List.pair_mem_product.mpr ⟨algIn, operationIn⟩
  have own : (algs ×ˢ operations).filter (fun pair => decide (pair.1 = alg ∧ pair.2 = operation)) = [(alg, operation)] := by
    have same : (algs ×ˢ operations).filter (fun pair => decide (pair.1 = alg ∧ pair.2 = operation)) =
        (algs ×ˢ operations).filter (· = (alg, operation)) :=
      List.filter_congr fun pair _ => decide_eq_decide.mpr
        ⟨fun both => Prod.ext both.1 both.2, fun whole => ⟨congrArg Prod.fst whole, congrArg Prod.snd whole⟩⟩
    rw [same, List.filter_eq, List.count_eq_one_of_mem (distinctAlgs.product distinctOperations) key]
    rfl
  rw [completeTable, List.filter_map]
  exact congrArg (List.map _) own

theorem averageRowsCongr {csv : ReadCsv} {columns : List κ} {numRuns : Nat} {table table' : Nat → List (PerfRow κ)}
    (same : ∀ run ∈ runs numRuns, table run = table' run) :
    averageRows csv algs operations columns numRuns table = averageRows csv algs operations columns numRuns table' := by
  have selected : ∀ alg, selectRuns csv PerfRow.algorithm (Text.contains · alg) numRuns table =
      selectRuns csv PerfRow.algorithm (Text.contains · alg) numRuns table' := fun alg =>
    Appending.mapSame fun run listed => by rw [same run listed]
  simp only [averageRows, combinedOperations, selected]

theorem completeNames (cells : String → String → κ → Option Rat) :
    (completeTable algs operations cells).map PerfRow.algorithm = (algs ×ˢ operations).map Prod.fst := by
  rw [completeTable, List.map_map]
  rfl

theorem averagesComplete {csv : ReadCsv} (distinctAlgs : algs.Nodup) (separateAlgs : Separate algs)
    (text : csv.isText ((algs ×ˢ operations).map Prod.fst) = true) (distinctOperations : operations.Nodup)
    (separateOperations : Separate operations) (columns : List κ) (numRuns : Nat) {table : Nat → List (PerfRow κ)}
    {cells : Nat → String → String → κ → Option Rat}
    (complete : ∀ run ∈ runs numRuns, table run = completeTable algs operations (cells run)) :
    averageRows csv algs operations columns numRuns table = some (meanRows algs operations columns numRuns cells) := by
  have names : ∀ run ∈ runs numRuns,
      csv.isText ((completeTable algs operations (cells run)).map PerfRow.algorithm) = true := fun run _ => by
    rw [completeNames]
    exact text
  rw [averageRowsCongr complete, averageExact separateAlgs separateOperations columns names
    (completeOneRowEach algs operations cells), ownRows, meanRows]
  congr 1
  refine List.flatMap_congr fun alg algIn => List.map_congr_left fun operation operationIn => ?_
  congr 1
  refine List.map_congr_left fun column _ => ?_
  rw [ownMean]
  congr 1
  rw [List.filterMap_eq_flatMap_toList]
  refine List.flatMap_congr fun run _ => ?_
  rw [completeOwn distinctAlgs distinctOperations (cells run) algIn operationIn]
  cases cell : cells run alg operation column <;> simp [cell]

end Averages

def readCell (text : String) : Option Rat := if text = "" then none else some (Decimal.value text)

def readRow (row : Row) : PerfRow MemField :=
  ⟨row.getD 0 "", row.getD 1 "", fun column => readCell (row.getD (2 + memFieldnames.idxOf column) "")⟩

def readTable (written : List (String × List Row)) (name : String) : List (PerfRow MemField) :=
  ((written.lookup name).getD []).map readRow

inductive Profiled (kind : AlgKind) (lines : List String) : Option (MemField → Nat) → Prop where
  | peak {metrics : MemField → Nat} (has : HasPeak lines (memFieldnames.map fun column => (metrics column).repr)) :
      Profiled kind lines (some metrics)
  | flat (signs : kind = .sig) (none_ : NoPeak lines) : Profiled kind lines none

def MemReadings := MemTest → Option (MemField → Nat)

def MemReadings.cells (readings : MemReadings) (kind : AlgKind) (run : Nat) (alg operation : String) (column : MemField) :
    Option Rat :=
  (readings ⟨kind, alg, kind.operations.idxOf operation, run⟩).map fun metrics => (metrics column : Rat)

theorem profiledFits {kind : AlgKind} {lines : List String} {reading : Option (MemField → Nat)}
    (profiled : Profiled kind lines reading) : FileFits kind (some lines) := by
  cases profiled with
  | peak has => exact ⟨lines, rfl, .inl ⟨_, has, rfl⟩⟩
  | flat signs none_ => exact ⟨lines, rfl, .inr ⟨signs, none_⟩⟩

theorem readNumeral (n : Nat) : readCell n.repr = some (n : Rat) := by
  have some_ : n.repr ≠ "" := by
    intro same
    exact Nat.toDigits_ne_nil (Nat.toList_repr.symm.trans (congrArg String.toList same))
  rw [readCell, if_neg some_, Decimal.valueRepr]

theorem profiledRow {kind : AlgKind} {lines : List String} {reading : Option (MemField → Nat)}
    (profiled : Profiled kind lines reading) (alg : String) (operation : Nat) :
    readRow (kind.label alg operation ++ memoryCells kind (some lines)) =
      ⟨alg, kind.operations.getD operation "", fun column => reading.map fun metrics => (metrics column : Rat)⟩ := by
  rw [memoryCells, Option.bind_some]
  cases profiled with
  | @peak metrics has =>
    rw [getPeakFound has, Option.getD_some]
    have cells : (fun column : MemField => readCell ((kind.label alg operation ++ memFieldnames.map fun column =>
        (metrics column).repr).getD (2 + memFieldnames.idxOf column) "")) = fun column => some (metrics column : Rat) := by
      funext column
      cases column <;> exact readNumeral _
    exact congrArg (PerfRow.mk alg _) cells
  | flat signs none_ =>
    subst signs
    rw [getPeakNone none_, Option.getD_none]
    have cells : (fun column : MemField => readCell ((AlgKind.sig.label alg operation ++ AlgKind.sig.blankMetrics).getD
        (2 + memFieldnames.idxOf column) "")) = fun _ => none := by
      funext column
      cases column <;> rfl
    exact congrArg (PerfRow.mk alg _) cells

theorem operationCells (kind : AlgKind) (algs : List String) (cells : String → Nat → MemField → Option Rat) :
    (algOperations algs).map (fun item => (⟨item.1, kind.operations.getD item.2 "", cells item.1 item.2⟩ : PerfRow MemField)) =
      completeTable algs kind.operations fun alg operation => cells alg (kind.operations.idxOf operation) := by
  have pairs : ∀ names : List String, algs ×ˢ names = algs.flatMap fun alg => names.map (Prod.mk alg) := fun _ => rfl
  rw [algOperations, completeTable, pairs, List.map_flatMap, List.map_flatMap]
  refine List.flatMap_congr fun alg _ => ?_
  cases kind <;> rfl

section MemoryCampaign

variable {a : ComputationalAverager} {print : MemTest → List String} {readings : MemReadings}

theorem ownTableRead (distinctKem : a.kemAlgs.Nodup) (distinctSig : a.sigAlgs.Nodup)
    (profiled : ∀ test ∈ memMeasurements a.numRuns a.kemAlgs a.sigAlgs, Profiled test.kind (print test) (readings test))
    (files : MemFiles) {half : AlgKind × Nat} (member : half ∈ halves a.numRuns) :
    let back := fun kind name => memTests print a.numRuns a.kemAlgs a.sigAlgs files (kind, name)
    HalfFits a.kemAlgs a.sigAlgs back half ∧ (ownTable a.kemAlgs a.sigAlgs back half).2.map readRow =
      completeTable (half.1.algs a.kemAlgs a.sigAlgs) half.1.operations (readings.cells half.1 half.2) := by
  intro back
  have kept : ∀ item ∈ algOperations (half.1.algs a.kemAlgs a.sigAlgs),
      halfFile back half item.1 item.2 = some (print ⟨half.1, item.1, item.2, half.2⟩) ∧
        Profiled half.1 (print ⟨half.1, item.1, item.2, half.2⟩) (readings ⟨half.1, item.1, item.2, half.2⟩) := by
    intro item listed
    have test : (⟨half.1, item.1, item.2, half.2⟩ : MemTest) ∈ memMeasurements a.numRuns a.kemAlgs a.sigAlgs :=
      List.mem_flatMap.mpr ⟨half, member, List.mem_map.mpr ⟨item, listed, rfl⟩⟩
    exact ⟨memTestsKeep distinctKem distinctSig test, profiled _ test⟩
  constructor
  · intro item listed
    obtain ⟨own, fits⟩ := kept item listed
    rw [own]
    exact profiledFits fits
  · have rows : (ownTable a.kemAlgs a.sigAlgs back half).2.map readRow = (algOperations (half.1.algs a.kemAlgs a.sigAlgs)).map
        fun item => ⟨item.1, half.1.operations.getD item.2 "", fun column =>
          (readings ⟨half.1, item.1, item.2, half.2⟩).map fun metrics => (metrics column : Rat)⟩ := by
      rw [ownTable, List.map_map]
      refine List.map_congr_left fun item listed => ?_
      obtain ⟨own, fits⟩ := kept item listed
      rw [Function.comp_apply, ownRow, own]
      exact profiledRow fits item.1 item.2
    rw [rows]
    exact operationCells half.1 (half.1.algs a.kemAlgs a.sigAlgs) fun alg operation column =>
      (readings ⟨half.1, alg, operation, half.2⟩).map fun metrics => (metrics column : Rat)

theorem tableFiled {back : AlgKind → String → Option (List String)} {half : AlgKind × Nat} (member : half ∈ halves a.numRuns) :
    ((halves a.numRuns).map (ownTable a.kemAlgs a.sigAlgs back)).lookup (half.1.metricsFile half.2) =
      some (ownTable a.kemAlgs a.sigAlgs back half).2 := by
  have entry : ownTable a.kemAlgs a.sigAlgs back half ∈ (halves a.numRuns).map (ownTable a.kemAlgs a.sigAlgs back) :=
    List.mem_map_of_mem member
  refine Recording.lookupUnique ?_ entry
  rw [List.map_map]
  exact (halvesNodup a.numRuns).map fun _ _ same => metricsFileInj same

theorem halfListed {numRuns run : Nat} (kind : AlgKind) (listed : run ∈ runs numRuns) : (kind, run) ∈ halves numRuns := by
  refine List.mem_flatMap.mpr ⟨run, listed, ?_⟩
  cases kind with
  | kem => exact List.mem_cons_self
  | sig => exact List.mem_cons_of_mem _ List.mem_cons_self

theorem memoryCampaign (csv : ReadCsv) (pd : DataFrames) (a : ComputationalAverager) (distinctKem : a.kemAlgs.Nodup)
    (distinctSig : a.sigAlgs.Nodup)
    (separateKem : Separate a.kemAlgs) (separateSig : Separate a.sigAlgs)
    (textKem : csv.isText ((a.kemAlgs ×ˢ kemOperations).map Prod.fst) = true)
    (textSig : csv.isText ((a.sigAlgs ×ˢ sigOperations).map Prod.fst) = true) (print : MemTest → List String)
      (readings : MemReadings)
    (profiled : ∀ test ∈ memMeasurements a.numRuns a.kemAlgs a.sigAlgs, Profiled test.kind (print test) (readings test))
    (files : MemFiles) :
    let back := fun kind name => memTests print a.numRuns a.kemAlgs a.sigAlgs files (kind, name)
    let progress := memoryProcessing pd a.numRuns a.kemAlgs a.sigAlgs back
    let table := fun kind run => readTable progress.written (AlgKind.metricsFile kind run)
    progress.exited = false ∧ a.avgMem csv (table .kem) (table .sig) =
      some (meanRows a.kemAlgs kemOperations memFieldnames a.numRuns (readings.cells .kem),
        meanRows a.sigAlgs sigOperations memFieldnames a.numRuns (readings.cells .sig)) := by
  intro back progress table
  have read := fun half member => @ownTableRead a print readings distinctKem distinctSig profiled files half member
  have written : progress = ⟨[], (halves a.numRuns).map (ownTable a.kemAlgs a.sigAlgs back), false⟩ := by
    change memoryProcessing pd a.numRuns a.kemAlgs a.sigAlgs back = _
    rw [processingFolds]
    exact halvesOfFits (fun half member => (read half member).1) []
  have complete : ∀ (kind : AlgKind), ∀ run ∈ runs a.numRuns,
      table kind run = completeTable (kind.algs a.kemAlgs a.sigAlgs) kind.operations (readings.cells kind run) := by
    intro kind run listed
    change readTable progress.written (kind.metricsFile run) = _
    rw [readTable, written, tableFiled (halfListed kind listed)]
    exact (read (kind, run) (halfListed kind listed)).2
  constructor
  · rw [written]
  · exact bothAverages.mpr
      ⟨averagesComplete distinctKem separateKem textKem (by decide) kemOperationsSeparate _ _ (complete .kem),
        averagesComplete distinctSig separateSig textSig (by decide) sigOperationsSeparate _ _ (complete .sig)⟩

end MemoryCampaign

theorem hasPeakOf {lines : List String} {metrics : Row} (found : getPeak lines = some metrics) : HasPeak lines metrics := by
  cases peakOrNone lines with
  | inl none_ =>
    rw [getPeakNone none_] at found
    cases found
  | inr peak =>
    obtain ⟨other, has⟩ := peak
    cases found.symm.trans (getPeakFound has)
    exact has

def massifNumbers : MemField → Nat
  | .intits => 1048576
  | .peakBytes => 12344
  | .heap => 10000
  | .extHeap => 344
  | .stack => 2000

theorem massifProfiled (kind : AlgKind) : Profiled kind massifLines (some massifNumbers) :=
  .peak (hasPeakOf (by decide +kernel))

theorem memoryCampaignTwoRuns :
    let back := fun kind name => memTests (fun _ => massifLines) 2 ["BIKE-L1"] ["Dilithium2"] (fun _ => none) (kind, name)
    let progress := memoryProcessing plainFrames 2 ["BIKE-L1"] ["Dilithium2"] back
    let table := fun kind run => readTable progress.written (AlgKind.metricsFile kind run)
    progress.exited = false ∧ bikeDilithium.avgMem lettered (table .kem) (table .sig) =
      some (meanRows ["BIKE-L1"] kemOperations memFieldnames 2 (MemReadings.cells (fun _ => some massifNumbers) .kem),
        meanRows ["Dilithium2"] sigOperations memFieldnames 2 (MemReadings.cells (fun _ => some massifNumbers) .sig)) :=
  memoryCampaign lettered plainFrames bikeDilithium (by decide) (by decide) (separateOne _) (separateOne _) (by decide) (by decide)
    (fun _ => massifLines) (fun _ => some massifNumbers) (fun test _ => massifProfiled test.kind) (fun _ => none)

section SpeedCampaign

variable {ρ : Type}

def Block.outline (csv : ReadCsv) (block : Block ρ) : Option String × List (Option String × ρ) :=
  (operationCell csv block.name.operation, block.rows.map (payload csv))

structure Benchmarked (csv : ReadCsv) (algs operations : List String) (cells : String → String → ρ)
    (file : SpeedFile ρ) : Prop where
  text : csv.textColumn (file.body.map SpeedLine.operation) = true
  blocks : file.blocks.map (Block.outline csv) = algs.map fun alg =>
    (some alg, operations.map fun operation => (some operation, cells alg operation))
  apart : ∀ operation ∈ operations, operation ∉ algs

def readSpeed (number : ρ → String → Option Rat) (row : SpeedRow ρ) : PerfRow String :=
  ⟨row.algorithm, row.operation.getD "", number row.cells⟩

def readSpeedTable (number : ρ → String → Option Rat) (written : List (String × List (SpeedRow ρ))) (name : String) :
    List (PerfRow String) :=
  ((written.lookup name).getD []).map (readSpeed number)

variable {csv : ReadCsv} {algs operations : List String} {cells : String → String → ρ} {file : SpeedFile ρ}

theorem operationStrip {text name : String} (cell : operationCell csv text = some name) : strip text = name := by
  unfold operationCell at cell
  split at cell
  · cases cell
  · exact Option.some.inj cell

theorem benchmarkedBlock (bench : Benchmarked csv algs operations cells file) {block : Block ρ} (member : block ∈ file.blocks) :
    ∃ alg ∈ algs, operationCell csv block.name.operation = some alg ∧
      block.rows.map (payload csv) = operations.map fun operation => (some operation, cells alg operation) := by
  have entry : block.outline csv ∈ file.blocks.map (Block.outline csv) := List.mem_map_of_mem member
  rw [bench.blocks] at entry
  obtain ⟨alg, listed, same⟩ := List.mem_map.mp entry
  exact ⟨alg, listed, (congrArg Prod.fst same).symm, (congrArg Prod.snd same).symm⟩

theorem benchmarkedEach {β : Type} (bench : Benchmarked csv algs operations cells file)
    (give : String → List (Option String × ρ) → List β) :
    (file.blocks.flatMap fun block => give (strip block.name.operation) (block.rows.map (payload csv))) =
      algs.flatMap fun alg => give alg (operations.map fun operation => (some operation, cells alg operation)) := by
  have outlines : (file.blocks.flatMap fun block => give (strip block.name.operation) (block.rows.map (payload csv))) =
      (file.blocks.map (Block.outline csv)).flatMap fun outline => give (outline.1.getD "") outline.2 := by
    rw [List.flatMap_map]
    refine List.flatMap_congr fun block member => ?_
    obtain ⟨alg, -, named, -⟩ := benchmarkedBlock bench member
    rw [Block.outline, named, operationStrip named]
    rfl
  rw [outlines, bench.blocks, List.flatMap_map]
  rfl

theorem benchmarkedFits (bench : Benchmarked csv algs operations cells file) (three : operations.length = 3) :
    LabelsFit csv algs file := by
  constructor
  · intro block member
    obtain ⟨alg, listed, named, -⟩ := benchmarkedBlock bench member
    rw [isAlg, named]
    exact decide_eq_true listed
  · intro row member
    obtain ⟨block, inside, rowIn⟩ := List.mem_flatMap.mp member
    obtain ⟨alg, -, -, rows⟩ := benchmarkedBlock bench inside
    have entry : payload csv row ∈ block.rows.map (payload csv) := List.mem_map_of_mem rowIn
    rw [rows] at entry
    obtain ⟨operation, listed, same⟩ := List.mem_map.mp entry
    have cell : operationCell csv row.operation = some operation := (congrArg Prod.fst same).symm
    rw [isAlg, cell]
    exact decide_eq_false (bench.apart operation listed)
  · have each := benchmarkedEach bench fun name rows => List.replicate rows.length name
    simp only [List.length_map, three] at each
    exact each

theorem benchmarkedRows (bench : Benchmarked csv algs operations cells file) (number : ρ → String → Option Rat) :
    (file.labelledRows csv).map (readSpeed number) = completeTable algs operations fun alg operation =>
      number (cells alg operation) := by
  have each := benchmarkedEach bench fun name rows => rows.map fun entry =>
    (⟨name, entry.1.getD "", number entry.2⟩ : PerfRow String)
  simp only [List.map_map] at each
  have pairs : algs ×ˢ operations = algs.flatMap fun alg => operations.map (Prod.mk alg) := rfl
  rw [SpeedFile.labelledRows, completeTable, pairs, List.map_flatMap, List.map_flatMap]
  simp only [List.map_map]
  exact each

theorem benchmarkedResult (bench : Benchmarked csv algs operations cells file) (three : operations.length = 3) :
    speedResult csv algs file.lines = .ok (file.labelledRows csv) := by
  have fits := benchmarkedFits bench three
  have count : (file.kept csv algs).length = algs.length * 3 := by
    rw [keptOfFits csv fits.headers fits.operations, ← newColLength, ← fits.order, ← labelledAlgorithms csv, List.length_map]
    have lengths := congrArg List.length (labelledPayloads csv file)
    rw [List.length_map, List.length_map] at lengths
    exact lengths.symm
  rw [speedResultLines csv bench.text, if_neg (checkPasses count), (positionsLabel csv count).mpr fits]

theorem speedTestsRecord (print : AlgKind → Nat → List (SpeedLine ρ)) (numRuns : Nat)
    (files : String → Option (List (SpeedLine ρ))) :
    speedTests print numRuns files =
      recordAll files ((halves numRuns).map fun half => (half.1.speedFilename half.2, print half.1 half.2)) := by
  rw [speedTests, halves, recordAll, List.foldl_map, List.foldl_flatMap]
  rfl

variable {output : AlgKind → Nat → SpeedFile ρ} {numRuns : Nat}

theorem speedTestsKeep (files : String → Option (List (SpeedLine ρ))) {half : AlgKind × Nat} (member : half ∈ halves numRuns) :
    speedTests (fun kind run => (output kind run).lines) numRuns files (half.1.speedFilename half.2) =
      some (output half.1 half.2).lines := by
  rw [speedTestsRecord]
  have entry : (half.1.speedFilename half.2, (output half.1 half.2).lines) ∈ (halves numRuns).map fun half =>
      (half.1.speedFilename half.2, (output half.1 half.2).lines) := List.mem_map_of_mem member
  refine Recording.recordAllUnique ?_ entry
  rw [List.map_map]
  exact (halvesNodup numRuns).map fun _ _ same => speedFilenameInj same

def preparedFile (output : AlgKind → Nat → SpeedFile ρ) (half : AlgKind × Nat) : String × SpeedFrame ρ :=
  (half.1.speedFilename half.2, ⟨(output half.1 half.2).header.operation, (output half.1 half.2).body⟩)

theorem speedTestsPrepared (files : String → Option (List (SpeedLine ρ))) :
    preSpeedProcessing numRuns (speedTests (fun kind run => (output kind run).lines) numRuns files) =
      some ((halves numRuns).map (preparedFile output)) := by
  rw [preSpeedProcessing, List.mapM_map]
  refine (Appending.mapExact _).mpr fun half member => ?_
  rw [Function.comp_apply, speedTestsKeep files member, Option.bind_some, preSpeedLines]
  rfl

theorem speedFiled {β : Type} (content : AlgKind × Nat → β) {half : AlgKind × Nat} (member : half ∈ halves numRuns) :
    ((halves numRuns).map fun half => (half.1.speedFilename half.2, content half)).lookup (half.1.speedFilename half.2) =
      some (content half) := by
  have entry : (half.1.speedFilename half.2, content half) ∈ (halves numRuns).map fun half =>
      (half.1.speedFilename half.2, content half) := List.mem_map_of_mem member
  refine Recording.lookupUnique ?_ entry
  rw [List.map_map]
  exact (halvesNodup numRuns).map fun _ _ same => speedFilenameInj same

theorem speedHalvesWritten {kemAlgs sigAlgs : List String} {cells : AlgKind → Nat → String → String → ρ}
    (bench : ∀ half ∈ halves numRuns, Benchmarked csv (half.1.algs kemAlgs sigAlgs) half.1.operations
      (cells half.1 half.2) (output half.1 half.2)) {list : List (AlgKind × Nat)} (within : ∀ half ∈ list, half ∈ halves numRuns) :
    speedHalves csv kemAlgs sigAlgs ((halves numRuns).map (preparedFile output)) list =
      ⟨list.map fun half => (half.1.speedFilename half.2, (output half.1 half.2).labelledRows csv), none⟩ := by
  induction list with
  | nil => rfl
  | cons half rest ih =>
    obtain ⟨here, within⟩ := List.forall_mem_cons.mp within
    have found : ((halves numRuns).map (preparedFile output)).lookup (half.1.speedFilename half.2) =
        some (preparedFile output half).2 := speedFiled (fun half => (preparedFile output half).2) here
    have three : half.1.operations.length = 3 := by cases half.1 <;> rfl
    have result := benchmarkedResult (bench half here) three
    rw [speedResult, preSpeedLines, Option.elim_some] at result
    rw [speedHalves, found]
    dsimp only
    rw [Option.elim_some, preparedFile, result, ih within]
    rfl

end SpeedCampaign

theorem speedCampaign {ρ : Type} (csv : ReadCsv) (number : ρ → String → Option Rat) (a : ComputationalAverager)
    (distinctKem : a.kemAlgs.Nodup) (distinctSig : a.sigAlgs.Nodup) (separateKem : Separate a.kemAlgs)
    (separateSig : Separate a.sigAlgs) (textKem : csv.isText ((a.kemAlgs ×ˢ kemOperations).map Prod.fst) = true)
    (textSig : csv.isText ((a.sigAlgs ×ˢ sigOperations).map Prod.fst) = true) (output : AlgKind → Nat → SpeedFile ρ)
    (cells : AlgKind → Nat → String → String → ρ)
    (bench : ∀ half ∈ halves a.numRuns, Benchmarked csv (half.1.algs a.kemAlgs a.sigAlgs) half.1.operations
      (cells half.1 half.2) (output half.1 half.2)) (files : String → Option (List (SpeedLine ρ))) (speedFieldnames : List String) :
    ∃ progress, (preSpeedProcessing a.numRuns (speedTests (fun kind run => (output kind run).lines) a.numRuns files)).map
        (speedProcessing csv a.numRuns a.kemAlgs a.sigAlgs) = some progress ∧ progress.stopped = none ∧
      let table := fun kind run => readSpeedTable number progress.written (AlgKind.speedFilename kind run)
      let read := fun kind run alg operation => number (cells kind run alg operation)
      a.avgSpeed csv speedFieldnames (table .kem) (table .sig) =
        some (meanRows a.kemAlgs kemOperations speedFieldnames a.numRuns (read .kem),
          meanRows a.sigAlgs sigOperations speedFieldnames a.numRuns (read .sig)) := by
  have written := speedHalvesWritten bench fun half member => member
  refine ⟨_, congrArg (Option.map _) (speedTestsPrepared files), ?_⟩
  rw [speedProcessing, written]
  refine ⟨rfl, ?_⟩
  intro table read
  have complete : ∀ (kind : AlgKind), ∀ run ∈ runs a.numRuns,
      table kind run = completeTable (kind.algs a.kemAlgs a.sigAlgs) kind.operations (read kind run) := by
    intro kind run listed
    have member := halfListed kind listed
    have found := speedFiled (fun half => (output half.1 half.2).labelledRows csv) member
    change readSpeedTable number _ (kind.speedFilename run) = _
    rw [readSpeedTable, found]
    exact benchmarkedRows (bench (kind, run) member) number
  exact bothAverages.mpr
    ⟨averagesComplete distinctKem separateKem textKem (by decide) kemOperationsSeparate _ _ (complete .kem),
      averagesComplete distinctSig separateSig textSig (by decide) sigOperationsSeparate _ _ (complete .sig)⟩

def oneBlock (kind : AlgKind) (run : Nat) : SpeedFile Nat where
  preamble := [⟨"Speed test", 0⟩]
  header := ⟨"Operation   ", 0⟩
  separator := ⟨"------------", 0⟩
  blocks := [⟨⟨(match kind with | .kem => "BIKE-L1 " | .sig => "Dilithium2 "), 0⟩,
    kind.operations.map fun operation => ⟨operation, 100 * run⟩⟩]
  footer := ⟨"Ended", 0⟩
  preambleFree := by decide
  headerStarts := by decide
  headerNamed := by decide

theorem operationsRead (kind : AlgKind) : ∀ operation ∈ kind.operations, operationCell lettered operation = some operation := by
  cases kind <;> decide

theorem oneBlockText (kind : AlgKind) (run : Nat) :
    lettered.textColumn ((oneBlock kind run).body.map SpeedLine.operation) = true := by
  have names : (oneBlock kind run).body.map SpeedLine.operation =
      (match kind with | .kem => "BIKE-L1 " | .sig => "Dilithium2 ") :: kind.operations := by
    cases kind <;> rfl
  rw [names]
  cases kind <;> decide

theorem oneBlockBenchmarked (half : AlgKind × Nat) : Benchmarked lettered (half.1.algs ["BIKE-L1"] ["Dilithium2"])
    half.1.operations (fun _ _ => 100 * half.2) (oneBlock half.1 half.2) := by
  obtain ⟨kind, run⟩ := half
  have rows : (kind.operations.map fun operation => (⟨operation, 100 * run⟩ : SpeedLine Nat)).map (payload lettered) =
      kind.operations.map fun operation => (some operation, 100 * run) := by
    rw [List.map_map]
    exact List.map_congr_left fun operation listed => Prod.ext (operationsRead kind operation listed) rfl
  have named : operationCell lettered "BIKE-L1 " = some "BIKE-L1" ∧
      operationCell lettered "Dilithium2 " = some "Dilithium2" := by decide
  refine ⟨oneBlockText kind run, ?_, ?_⟩
  · cases kind with
    | kem => exact congrArg (fun outline => [outline]) (Prod.ext named.1 rows)
    | sig => exact congrArg (fun outline => [outline]) (Prod.ext named.2 rows)
  · cases kind with
    | kem =>
      change ∀ operation ∈ kemOperations, operation ∉ ["BIKE-L1"]
      decide
    | sig =>
      change ∀ operation ∈ sigOperations, operation ∉ ["Dilithium2"]
      decide

theorem speedCampaignTwoRuns :
    ∃ progress, (preSpeedProcessing 2 (speedTests (fun kind run => (oneBlock kind run).lines) 2 fun _ => none)).map
        (speedProcessing lettered 2 ["BIKE-L1"] ["Dilithium2"]) = some progress ∧ progress.stopped = none ∧
      let table := fun kind run =>
        readSpeedTable (fun (count : Nat) _ => some (count : Rat)) progress.written (AlgKind.speedFilename kind run)
      let read := fun (_ : AlgKind) (run : Nat) (_ _ _ : String) => some ((100 * run : Nat) : Rat)
      bikeDilithium.avgSpeed lettered ["Iterations"] (table .kem) (table .sig) =
        some (meanRows ["BIKE-L1"] kemOperations ["Iterations"] 2 (read .kem),
          meanRows ["Dilithium2"] sigOperations ["Iterations"] 2 (read .sig)) :=
  speedCampaign lettered (fun (count : Nat) _ => some (count : Rat)) bikeDilithium (by decide) (by decide)
    (separateOne _) (separateOne _) (by decide) (by decide) oneBlock (fun _ run _ _ => 100 * run)
    (fun half _ => oneBlockBenchmarked half) (fun _ => none) ["Iterations"]

end Armor.Results
