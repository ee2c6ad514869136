import Armor.Results.ComputationalCampaign
import Armor.Results.SpeedLog
import Armor.Tls.SpeedTest

/-! The TLS speed tests from the outputs of `openssl speed` to the averages: `tls_speed_test.sh` writes one
log per test and run, `speed_processing` makes a table of each, and the averager combines the tables. -/
namespace Armor.Tls.SpeedTest
open Recording (recordAll)
open Results (AlgKind TypePrefix ColumnMismatch SpeedLog LoggedRow LogEntry TlsSpeedRow TlsSpeedAvgRow SpeedDir getSpeedMetrics
  genSpeedAvgs runs speedFiles startsTable tlsSpeedAvgFile tlsSpeedFile)

def TestType.typePrefix : TestType → TypePrefix
  | .pqcKems | .pqcSignatures => .pqc
  | .hybridKems | .hybridSignatures => .hybrid

def TestType.kind : TestType → AlgKind
  | .pqcKems | .hybridKems => .kem
  | .pqcSignatures | .hybridSignatures => .sig

abbrev Files := String → Option (List String)

variable (env : Environment)

def removed (files : Files) : Files := fun path =>
  if Text.startsWith path (env.pqcSpeed ++ "/") || Text.startsWith path (env.hybridSpeed ++ "/") then none else files path

def outputs (printed : Call → List String) (files : Files) (calls : List Call) : Files :=
  recordAll files (calls.map fun call => (call.output, printed call))

def allCalls : List Call := (runs env.numRun).flatMap fun run => testTypes.map (env.call run)

inductive ParseStop where
  | missing (path : String)
  | mismatch (columns : ColumnMismatch)
  deriving DecidableEq, Repr

structure CsvTable where
  headers : List String
  rows : List (List String)
  deriving DecidableEq, Repr

abbrev CsvFiles := String → Option CsvTable

def folder : TypePrefix → String
  | .pqc => env.pqcSpeed
  | .hybrid => env.hybridSpeed

def upFile (file : TypePrefix × AlgKind) (run : Nat) : String :=
  folder env file.1 ++ "/" ++ (file.1.speedPrefix ++ "_" ++ file.2.typeName ++ "_" ++ run.repr ++ ".txt")

def parsed (pd : Results.DataFrames) (files : Files) (run : Nat) (file : TypePrefix × AlgKind) :
    Except ParseStop (List (String × CsvTable)) :=
  match files (upFile env file run) with
  | none => .error (.missing (upFile env file run))
  | some lines =>
    match getSpeedMetrics pd file.2 lines with
    | .error columns => .error (.mismatch columns)
    | .ok rows => .ok [(tlsSpeedFile file.1 file.2 run, ⟨file.2.speedHeaders, rows⟩)]

def speedProcessing (pd : Results.DataFrames) (files : Files) (written : List (String × CsvTable)) (run : Nat) :
    Except ParseStop (List (String × CsvTable)) :=
  speedFiles.foldlM (Appending.append (parsed env pd files run)) written

def outputProcessing (pd : Results.DataFrames) (files : Files) : Except ParseStop (List (String × CsvTable)) :=
  (runs env.numRun).foldlM (speedProcessing env pd files) []

-- `number`: the number that `read_csv` reads in a cell, if any
variable (number : String → Option Rat)

def readRow (headers cells : List String) : TlsSpeedRow :=
  ⟨cells.headD "", fun column => ((headers.zip cells).lookup column).bind number⟩

def readTables (files : CsvFiles) : SpeedDir := fun name =>
  (files name).map fun table => table.rows.map (readRow number table.headers)

structure SpeedOutput (algs : List String) where
  preamble : List String
  free : ∀ line ∈ preamble, startsTable line = false
  header : String
  starts : startsTable header = true
  rows : List LoggedRow
  plain : ∀ row ∈ rows, startsTable row.line = false
  each : (rows.map LoggedRow.name).Perm algs

variable {algs : List String}

def SpeedOutput.log (output : SpeedOutput algs) : SpeedLog where
  preamble := output.preamble
  free := output.free
  header := output.header
  starts := output.starts
  table := output.rows.map .logged

def SpeedOutput.value (output : SpeedOutput algs) (kind : AlgKind) (alg column : String) : Option Rat :=
  (output.rows.find? fun row => row.name = alg).bind fun row =>
    ((kind.speedHeaders.tail.zip (row.cells.map Prod.fst)).lookup column).bind number

def meansPrinted (output : Nat → SpeedOutput algs) (kind : AlgKind) (numRuns : Nat) : List TlsSpeedAvgRow :=
  ((output 1).rows.map LoggedRow.name).map fun alg => ⟨alg, kind.speedHeaders.tail.map fun column =>
    mean ((runs numRuns).filterMap fun run => (output run).value number kind alg column)⟩

section Commands

variable {env : Environment} {status : Call → Nat} {number}

theorem speedTestCalls {run : Nat} {s s' : State} {test : TestType} (passed : speedTest env status run s test = .ok s') :
    s'.calls = s.calls ++ [env.call run test] := by
  unfold speedTest at passed
  dsimp only at passed
  split at passed
  · cases passed
  · cases passed
    rfl

theorem tlsSpeedTestCalls {s s' : State} (passed : tlsSpeedTest env status s = .ok s') :
    s'.calls = s.calls ++ allCalls env := by
  refine Script.foldAdds State.calls (fun s run s' ran => ?_) passed
  rw [Script.foldAdds State.calls (fun s test s' ran => speedTestCalls ran) ran]
  rfl

theorem entrypointCalls (present : env.Present) (passes : AllPass env status) (s : State) :
    ∃ s', tlsSpeedTestEntrypoint env status s = .ok s' ∧ s'.calls = s.calls ++ allCalls env := by
  obtain ⟨mid, ran⟩ := (tlsSpeedTestPasses (configureOpensslCnf .keyGeneration s)).mpr passes
  have made := tlsSpeedTestCalls ran
  refine ⟨configureOpensslCnf .testing mid, ?_, made⟩
  have setup : setupTestEnv env s = .ok s := if_pos present
  change ((setupTestEnv env s).bind fun s => (tlsSpeedTest env status (configureOpensslCnf .keyGeneration s)).bind fun s =>
    .ok (configureOpensslCnf .testing s)) = _
  rw [setup, Except.bind, ran]
  rfl

theorem numberedInj {start start' after : String} {run run' : Nat}
    (same : start ++ "_" ++ run.repr ++ after = start' ++ "_" ++ run'.repr ++ after) : start = start' ∧ run = run' := by
  have chars := congrArg String.toList same
  simp only [String.toList_append] at chars
  obtain ⟨names, runs⟩ := @Results.numeralInj _ _ _ _ '_' rfl (List.append_cancel_right chars)
  exact ⟨String.toList_injective names, runs⟩

theorem baseInj {folder folder' base base' : List Char} (plain : '/' ∉ base) (plain' : '/' ∉ base')
    (same : folder ++ '/' :: base = folder' ++ '/' :: base') : base = base' := by
  rcases List.append_eq_append_iff.mp same with ⟨more, -, long⟩ | ⟨more, -, long⟩
  · cases more with
    | nil => exact (List.cons.inj long).2
    | cons c more => exact absurd ((List.cons.inj long).2 ▸ List.mem_append_right more List.mem_cons_self) plain
  · cases more with
    | nil => exact (List.cons.inj long).2.symm
    | cons c more => exact absurd ((List.cons.inj long).2 ▸ List.mem_append_right more List.mem_cons_self) plain'

def TestType.base (test : TestType) : String := test.typePrefix.speedPrefix ++ "_" ++ test.kind.typeName

theorem TestType.baseApart : ∀ test test' : TestType, test.base = test'.base → test = test' := by
  intro test test'
  cases test <;> cases test' <;> decide

theorem TestType.basePlain (test : TestType) : '/' ∉ test.base.toList := by
  cases test <;> decide

theorem outputFileBase (test : TestType) :
    env.outputFile test = folder env test.typePrefix ++ "/" ++ test.base := by
  cases test <;> exact String.toList_injective (by simp only [Environment.outputFile, String.toList_append, List.append_assoc]; rfl)

theorem callOutput (run : Nat) (test : TestType) :
    (env.call run test).output = upFile env (test.typePrefix, test.kind) run := by
  refine String.toList_injective ?_
  have name := congrArg String.toList (@outputFileBase env test)
  simp only [Environment.call, upFile, TestType.base, String.toList_append, List.append_assoc] at name ⊢
  rw [name]
  simp only [List.append_assoc]

theorem callOutputInj {run run' : Nat} {test test' : TestType}
    (same : (env.call run test).output = (env.call run' test').output) : run = run' ∧ test = test' := by
  obtain ⟨names, runs⟩ := numberedInj same
  rw [outputFileBase, outputFileBase] at names
  have chars := congrArg String.toList names
  simp only [String.toList_append, List.append_assoc] at chars
  have bases := baseInj test.basePlain test'.basePlain chars
  exact ⟨runs, test.baseApart test' (String.toList_injective bases)⟩

theorem tlsSpeedFileInj {run run' : Nat} {test test' : TestType}
    (same : tlsSpeedFile test.typePrefix test.kind run = tlsSpeedFile test'.typePrefix test'.kind run') :
    run = run' ∧ test = test' := by
  obtain ⟨names, runs⟩ := numberedInj same
  exact ⟨runs, test.baseApart test' names⟩

theorem testListed (test : TestType) : test ∈ testTypes := by
  cases test <;> decide

theorem callListed {run : Nat} (listed : run ∈ runs env.numRun) (test : TestType) : env.call run test ∈ allCalls env :=
  List.mem_flatMap.mpr ⟨run, listed, List.mem_map_of_mem (testListed test)⟩

def measured (numRuns : Nat) : List (Nat × TestType) := (runs numRuns).flatMap fun run => testTypes.map (Prod.mk run)

theorem measuredNodup (numRuns : Nat) : (measured numRuns).Nodup := by
  have pairs : measured numRuns = runs numRuns ×ˢ testTypes := rfl
  rw [pairs]
  exact List.Nodup.product List.nodup_range' (by decide)

theorem measuredListed {numRuns run : Nat} (listed : run ∈ runs numRuns) (test : TestType) : (run, test) ∈ measured numRuns :=
  List.mem_flatMap.mpr ⟨run, listed, List.mem_map_of_mem (testListed test)⟩

theorem allCallsMeasured : allCalls env = (measured env.numRun).map fun item => env.call item.1 item.2 := by
  rw [allCalls, measured, List.map_flatMap]
  simp only [List.map_map]
  rfl

theorem outputsKeep (printed : Call → List String) (files : Files) {run : Nat} (listed : run ∈ runs env.numRun) (test : TestType) :
    outputs printed files (allCalls env) (upFile env (test.typePrefix, test.kind) run) = some (printed (env.call run test)) := by
  have entry : ((env.call run test).output, printed (env.call run test)) ∈ (allCalls env).map fun call =>
    (call.output, printed call) :=
    List.mem_map_of_mem (callListed listed test)
  rw [← callOutput, outputs]
  refine Recording.recordAllUnique ?_ entry
  rw [allCallsMeasured, List.map_map, List.map_map]
  refine (measuredNodup env.numRun).map fun item item' same => ?_
  obtain ⟨runSame, testSame⟩ := callOutputInj same
  exact Prod.ext runSame testSame

variable (output : (test : TestType) → Nat → SpeedOutput (env.algs test))

def printedLogs (call : Call) : List String := (output call.test call.run).log.lines

def tableOf (test : TestType) (run : Nat) : String × CsvTable :=
  (tlsSpeedFile test.typePrefix test.kind run, ⟨test.kind.speedHeaders, (output test run).rows.map LoggedRow.meant⟩)

theorem outputMetrics (pd : Results.DataFrames) {algs : List String} (output : SpeedOutput algs) (kind : AlgKind) :
    getSpeedMetrics pd kind output.log.lines = .ok (output.rows.map LoggedRow.meant) := by
  have plain : ∀ entry ∈ output.log.table, entry.Plain := by
    intro entry member
    obtain ⟨row, listed, rfl⟩ := List.mem_map.mp member
    exact output.plain row listed
  rw [Results.getSpeedMetricsEntries, (Results.loggedMetrics pd kind _ []).mpr plain, List.nil_append,
    SpeedOutput.log, List.flatMap_map]
  exact congrArg Except.ok (List.map_eq_flatMap).symm

theorem parsedOutput (pd : Results.DataFrames) (files : Files) {run : Nat} (listed : run ∈ runs env.numRun) (test : TestType) :
    parsed env pd (outputs (printedLogs output) files (allCalls env)) run (test.typePrefix, test.kind) =
      .ok [tableOf output test run] := by
  have metrics : getSpeedMetrics pd test.kind (printedLogs output (env.call run test)) =
    .ok ((output test run).rows.map LoggedRow.meant) :=
    outputMetrics pd (output test run) test.kind
  rw [parsed, outputsKeep (printedLogs output) files listed test]
  dsimp only
  rw [metrics]
  rfl

theorem speedFilesTests : speedFiles = testTypes.map fun test => (test.typePrefix, test.kind) := rfl

theorem outputsProcessed (pd : Results.DataFrames) (files : Files) :
    outputProcessing env pd (outputs (printedLogs output) files (allCalls env)) =
    .ok ((measured env.numRun).map fun item => tableOf output item.2 item.1) := by
  have pairs : ((runs env.numRun).flatMap fun run => speedFiles.map fun file => (run, file)) =
      (measured env.numRun).map fun item => (item.1, item.2.typePrefix, item.2.kind) := by
    rw [measured, List.map_flatMap, speedFilesTests]
    simp only [List.map_map]
    rfl
  have each : ∀ item ∈ measured env.numRun, parsed env pd (outputs (printedLogs output) files (allCalls env)) item.1
      (item.2.typePrefix, item.2.kind) = .ok [tableOf output item.2 item.1] := by
    intro item member
    obtain ⟨run, listed, tests⟩ := List.mem_flatMap.mp member
    obtain ⟨test, -, rfl⟩ := List.mem_map.mp tests
    exact parsedOutput output pd files listed test
  have run := Appending.nested (fun table run file => Appending.append
    (parsed env pd (outputs (printedLogs output) files (allCalls env)) run)
    table file) (runs env.numRun) speedFiles []
  rw [pairs, List.foldlM_map] at run
  refine run.trans ((Appending.appendAll each []).trans ?_)
  rw [List.nil_append, List.map_eq_flatMap]

variable (number : String → Option Rat)

theorem rowCell (kind : AlgKind) (row : LoggedRow) {column : String} (listed : column ∈ kind.speedHeaders.tail) :
    (readRow number kind.speedHeaders row.meant).cells column =
      ((kind.speedHeaders.tail.zip (row.cells.map Prod.fst)).lookup column).bind number := by
  have apart : ∀ kind : AlgKind, "Algorithm" ∉ kind.speedHeaders.tail := by
    intro kind
    cases kind <;> decide
  have other : (column == "Algorithm") = false := beq_false_of_ne fun same => apart kind (same ▸ listed)
  have first : kind.speedHeaders = "Algorithm" :: kind.speedHeaders.tail := by cases kind <;> rfl
  rw [readRow, LoggedRow.meant]
  dsimp only
  conv_lhs => rw [first, List.zip_cons_cons, List.lookup_cons, other]

theorem valueRead {algs : List String} (output : SpeedOutput algs) (kind : AlgKind) (alg : String) {column : String}
    (listed : column ∈ kind.speedHeaders.tail) :
    Results.ownValue (output.rows.map fun row => readRow number kind.speedHeaders row.meant) alg column =
      output.value number kind alg column := by
  rw [Results.ownValue, SpeedOutput.value, List.find?_map]
  change ((output.rows.find? fun row => row.name = alg).map _).bind _ = _
  cases output.rows.find? fun row => row.name = alg with
  | none => rfl
  | some row => exact rowCell number kind row listed

theorem tablesNodup : (((measured env.numRun).map fun item => tableOf output item.2 item.1).map Prod.fst).Nodup := by
  rw [List.map_map]
  refine (measuredNodup env.numRun).map fun item item' same => ?_
  obtain ⟨runSame, testSame⟩ := tlsSpeedFileInj same
  exact Prod.ext runSame testSame

theorem tableFiled (files : CsvFiles) {run : Nat} (listed : run ∈ runs env.numRun) (test : TestType) :
    readTables number (recordAll files ((measured env.numRun).map fun item => tableOf output item.2 item.1))
        (tlsSpeedFile test.typePrefix test.kind run) =
      some ((output test run).rows.map fun row => readRow number test.kind.speedHeaders row.meant) := by
  have entry : tableOf output test run ∈ (measured env.numRun).map fun item => tableOf output item.2 item.1 :=
    List.mem_map.mpr ⟨(run, test), measuredListed listed test, rfl⟩
  have kept := @Recording.recordAllUnique _ _ _ files _ (tablesNodup output) _ entry
  generalize (measured env.numRun).map (fun item => tableOf output item.2 item.1) = tables at kept ⊢
  rw [tableOf] at kept
  rw [readTables, kept, Option.map_some, List.map_map]
  rfl

def testOf : TypePrefix → AlgKind → TestType
  | .pqc, .kem => .pqcKems
  | .pqc, .sig => .pqcSignatures
  | .hybrid, .kem => .hybridKems
  | .hybrid, .sig => .hybridSignatures

theorem testOfKind (typePrefix : TypePrefix) (kind : AlgKind) :
    (testOf typePrefix kind).typePrefix = typePrefix ∧ (testOf typePrefix kind).kind = kind := by
  cases typePrefix <;> cases kind <;> exact ⟨rfl, rfl⟩

theorem tablesPresent (files : CsvFiles) (positive : 0 < env.numRun) :
    Results.OneRowPerAlg (fun typePrefix kind => env.algs (testOf typePrefix kind)) env.numRun
      (readTables number (recordAll files ((measured env.numRun).map fun item => tableOf output item.2 item.1))) := by
  intro typePrefix kind run listed
  rw [Nat.max_eq_right positive] at listed
  obtain ⟨prefixSame, kindSame⟩ := testOfKind typePrefix kind
  have filed := tableFiled output number files listed (testOf typePrefix kind)
  rw [prefixSame, kindSame] at filed
  refine ⟨_, filed, ?_⟩
  rw [List.map_map]
  exact (output (testOf typePrefix kind) run).each

theorem averagesOwn {csv : Results.ReadCsv} {names : TypePrefix → AlgKind → List String} {numRuns : Nat} {dir : SpeedDir}
    (positive : 0 < numRuns) (distinct : ∀ typePrefix kind, (names typePrefix kind).Nodup)
    (separate : ∀ typePrefix kind, Results.Separate (names typePrefix kind))
    (text : ∀ typePrefix kind, Results.TextColumn csv (names typePrefix kind))
    (rows : Results.OneRowPerAlg names numRuns dir) : Results.SpeedAvgsExact csv numRuns dir := by
  have tables : Results.TextTables csv numRuns dir := fun typePrefix kind run listed =>
    text typePrefix kind _ (Results.tableHeld rows typePrefix kind (Results.runRead listed)).2
  refine (Results.speedExactEach rows tables).mpr fun typePrefix kind alg algIn => ?_
  exact Results.metricsOwn (distinct typePrefix kind) (separate typePrefix kind)
    (fun run listed => (Results.tableHeld rows typePrefix kind (Results.runRead listed)).2) positive algIn _

theorem averagesPrinted (files : CsvFiles) (positive : 0 < env.numRun) (test : TestType) :
    Results.ownSpeedAvgs env.numRun (Results.speedTable
        (readTables number (recordAll files ((measured env.numRun).map fun item => tableOf output item.2 item.1)))
        test.typePrefix test.kind) test.kind.speedHeaders.tail =
      meansPrinted number (output test) test.kind env.numRun := by
  have table : ∀ run ∈ runs env.numRun, Results.speedTable
      (readTables number (recordAll files ((measured env.numRun).map fun item => tableOf output item.2 item.1)))
      test.typePrefix test.kind run = (output test run).rows.map fun row => readRow number test.kind.speedHeaders row.meant := by
    intro run listed
    rw [Results.speedTable, tableFiled output number files listed test, Option.getD_some]
  have first : 1 ∈ runs env.numRun := Results.runsMember.mpr ⟨Nat.le_refl _, positive⟩
  have names : ((output test 1).rows.map fun row => readRow number test.kind.speedHeaders row.meant).map TlsSpeedRow.algorithm =
      (output test 1).rows.map LoggedRow.name := by
    rw [List.map_map]
    rfl
  rw [Results.ownSpeedAvgs, meansPrinted, table 1 first, names]
  refine List.map_congr_left fun alg _ => ?_
  refine congrArg (TlsSpeedAvgRow.mk alg) (List.map_congr_left fun column listed => ?_)
  refine congrArg mean (List.filterMap_congr fun run inside => ?_)
  rw [table run inside, valueRead number (output test run) test.kind alg listed]

end Commands

def twoRuns : Environment := { oneRun with numRun := 2, algs := fun _ => ["ML-KEM-768"] }

def kemHeader : String := "                    keygen    encaps    decaps keygens/s  encaps/s  decaps/s"

theorem kemHeaderStarts : startsTable kemHeader = true := by decide +kernel

theorem versionFree : ∀ line ∈ ["version: 3.5.0"], startsTable line = false := by decide +kernel

theorem mlKemPlain : ∀ row ∈ [Results.loggedMlKem], startsTable row.line = false := by decide +kernel

def mlKemOutput : SpeedOutput ["ML-KEM-768"] :=
  ⟨["version: 3.5.0"], versionFree, kemHeader, kemHeaderStarts, [Results.loggedMlKem], mlKemPlain, List.Perm.refl _⟩

theorem mlKemText (test : TestType) : Results.TextColumn Results.lettered (twoRuns.algs test) := by
  intro column perm
  rw [List.perm_singleton.mp perm]
  decide

end Armor.Tls.SpeedTest
