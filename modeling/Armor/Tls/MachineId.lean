import Armor.Lib.Decimal
import Armor.Lib.FileTree

/-! The Machine-ID of `pqc_tls_performance_test.sh`, from the user's answers to the paths it exports
and to the `--machine-id` it hands to `parse_results.py`. A script that waits for an answer that
never comes, or exits, has no result. -/
namespace Armor.Tls.MachineId
open Decimal (isNumber)

variable {α : Type} (root : Path)

def testDataDir : Path := root ++ ["test_data"]

structure TlsPaths where
  machineResults : Path
  machineHandshakeResults : Path
  machineSpeedResults : Path
  pqcHandshake : Path
  classicHandshake : Path
  hybridHandshake : Path
  pqcSpeed : Path
  hybridSpeed : Path
  deriving DecidableEq

def tlsPaths (machineNum : String) : TlsPaths :=
  let results := testDataDir root ++ ["up_results", "tls_performance", "machine_" ++ machineNum]
  let handshake := results ++ ["handshake_results"]
  let speed := results ++ ["speed_results"]
  { machineResults := results
    machineHandshakeResults := handshake
    machineSpeedResults := speed
    pqcHandshake := handshake ++ ["pqc"]
    classicHandshake := handshake ++ ["classic"]
    hybridHandshake := handshake ++ ["hybrid"]
    pqcSpeed := speed ++ ["pqc"]
    hybridSpeed := speed ++ ["hybrid"] }

def TlsPaths.resultDirPaths (paths : TlsPaths) : List Path :=
  [paths.pqcHandshake, paths.classicHandshake, paths.hybridHandshake, paths.pqcSpeed, paths.hybridSpeed]

structure Decisions where
  custom : Bool
  entered : List String
  keepsParsed : Bool
  deriving DecidableEq

structure Session (α : Type) where
  tree : FileTree α
  machineNum : String
  paths : Option TlsPaths
  parsedResultsPath : Option Path
  parseResults : Bool
  replaceOldResults : Bool
  timeNum : String
  speedNum : String
  numRun : String
  decisions : Decisions

def start (tree : FileTree α) (parseResults : Bool) : Session α where
  tree := tree
  machineNum := "1"
  paths := none
  parsedResultsPath := none
  parseResults := parseResults
  replaceOldResults := false
  timeNum := ""
  speedNum := ""
  numRun := ""
  decisions := ⟨false, [], false⟩

def getUserYesNo : List String → Option (Bool × List String)
  | [] => none
  | answer :: rest =>
    if answer.toList.head? ∈ [some 'Y', some 'y'] then some (true, rest)
    else if answer.toList.head? ∈ [some 'N', some 'n'] then some (false, rest)
    else getUserYesNo rest

def getMachineNum : List String → Option (String × List String)
  | [] => none
  | answer :: rest => if isNumber answer then some (answer, rest) else getMachineNum rest

/-- The loops that ask for a length or a number of runs: `^[1-9][0-9]*$`. -/
def getPositive : List String → Option (String × List String)
  | [] => none
  | answer :: rest =>
    if isNumber answer ∧ answer.toList.head? ≠ some '0' then some (answer, rest) else getPositive rest

def Session.assign (s : Session α) (machineNum : String) : Session α :=
  { s with machineNum := machineNum, decisions := { s.decisions with entered := s.decisions.entered ++ [machineNum] } }

def setTlsPaths (s : Session α) : Session α := { s with paths := some (tlsPaths root s.machineNum) }

def makeResultDirs (s : Session α) : Session α :=
  { s with tree := (s.paths.elim [] TlsPaths.resultDirPaths).foldl FileTree.mkdirs s.tree }

def Session.hasResults (s : Session α) : Bool := s.paths.elim false fun paths => s.tree.isDir paths.machineResults

theorem getMachineNumSpec {answers rest : List String} {id : String} (got : getMachineNum answers = some (id, rest)) :
    rest.length < answers.length ∧ isNumber id = true := by
  induction answers with
  | nil => cases got
  | cons answer more ih =>
    rw [getMachineNum] at got
    split at got
    · next number =>
      cases got
      exact ⟨Nat.lt_succ_self _, number⟩
    · have later := ih got
      exact ⟨Nat.lt_succ_of_lt later.1, later.2⟩

def handleMachineIdClash (s : Session α) : List String → Option (Session α × List String)
  | [] => none
  | answer :: answers =>
    if answer = "1" then
      some (makeResultDirs { s with tree := s.paths.elim s.tree fun paths => s.tree.remove paths.machineResults }, answers)
    else if answer = "2" then
      match _got : getMachineNum answers with
      | none => none
      | some (id, rest) =>
        let s := setTlsPaths root (s.assign id)
        -- no directories are created for an identifier without results
        if s.hasResults then handleMachineIdClash s rest else some (s, rest)
    else handleMachineIdClash s answers
  termination_by answers => answers.length
  decreasing_by
    · have := (getMachineNumSpec _got).1
      simp only [List.length_cons]
      omega
    · simp only [List.length_cons]
      omega

def configureUpResults (s : Session α) (answers : List String) : Option (Session α × List String) :=
  if s.tree.isDir (testDataDir root ++ ["up_results"]) then
    if s.hasResults then handleMachineIdClash root s answers else some (makeResultDirs s, answers)
  else some (makeResultDirs s, answers)

def configureParsedResults (s : Session α) (answers : List String) : Option (Session α × List String) :=
  let parsed := testDataDir root ++ ["results", "tls_performance", "machine_" ++ s.machineNum]
  let s := { s with parsedResultsPath := some parsed }
  if s.tree.isDir parsed then
    match getUserYesNo answers with
    | none => none
    | some (true, rest) => some ({ s with replaceOldResults := true }, rest)
    | some (false, rest) =>
      some ({ s with parseResults := false, decisions := { s.decisions with keepsParsed := true } }, rest)
  else some (s, answers)

def configureResultsDir (s : Session α) (answers : List String) : Option (Session α × List String) := do
  let (s, answers) ← configureUpResults root (setTlsPaths root s) answers
  configureParsedResults root s answers

inductive MachineType where
  | server
  | client
  deriving DecidableEq, Repr

def getMachineType : List String → Option (MachineType × List String)
  | [] => none
  | answer :: rest =>
    if answer = "1" then some (.server, rest)
    else if answer = "2" then some (.client, rest)
    else if answer = "3" then none
    else getMachineType rest

def configureMachineId (s : Session α) (answers : List String) : Option (Session α × List String) :=
  match getUserYesNo answers with
  | none => none
  | some (true, answers) => do
    let (id, answers) ← getMachineNum answers
    configureResultsDir root { s with machineNum := id, decisions := ⟨true, [id], false⟩ } answers
  | some (false, answers) => do
    let (s, answers) ← configureResultsDir root s answers
    some ({ s with machineNum := "1" }, answers)

def configureClient (s : Session α) (answers : List String) : Option (Session α × List String) := do
  let (s, answers) ← configureMachineId root s answers
  let (timeNum, answers) ← getPositive answers
  let (speedNum, answers) ← getPositive answers
  some ({ s with timeNum := timeNum, speedNum := speedNum }, answers)

def configureTestOptions (s : Session α) (answers : List String) : Option (MachineType × Session α × List String) := do
  let (machineType, answers) ← getMachineType answers
  let (s, answers) ← (match machineType with
    | .server => some (s, answers)
    | .client => configureClient root s answers)
  let (numRun, answers) ← getPositive answers
  some (machineType, { s with numRun := numRun }, answers)

/-- The `--machine-id` and `--replace-old-results` of the parser call, where there is one. -/
def handleResultParsing (s : Session α) : Option (String × Bool) :=
  if s.parseResults then some (s.machineNum, s.replaceOldResults) else none

/-- `handle_args` on a string of digits: `type=int`. -/
def handleArgs (machineId : String) : Option Nat :=
  if isNumber machineId then some (Decimal.value machineId) else none

def machUpResultsDir (machineId : Nat) : Path :=
  testDataDir root ++ ["up_results", "tls_performance", "machine_" ++ machineId.repr]
def machResultsDir (machineId : Nat) : Path :=
  testDataDir root ++ ["results", "tls_performance", "machine_" ++ machineId.repr]

def ParsedWhereStored (s : Session α) : Prop :=
  ∀ machineId replace, handleResultParsing s = some (machineId, replace) →
    ∃ n, handleArgs machineId = some n ∧ s.paths.map TlsPaths.machineResults = some (machUpResultsDir root n) ∧
      s.parsedResultsPath = some (machResultsDir root n)

def Decisions.lastId (d : Decisions) : String := d.entered.getLast?.getD "1"

structure Consistent (s : Session α) : Prop where
  number : isNumber s.machineNum = true
  paths : s.paths = some (tlsPaths root s.machineNum)
  last : s.decisions.lastId = s.machineNum

structure SameFlags (s s' : Session α) : Prop where
  parse : s'.parseResults = s.parseResults
  keeps : s'.decisions.keepsParsed = s.decisions.keepsParsed
  custom : s'.decisions.custom = s.decisions.custom

variable {root} {s s' : Session α} {answers rest : List String}

theorem SameFlags.trans {s'' : Session α} (first : SameFlags s s') (second : SameFlags s' s'') : SameFlags s s'' :=
  ⟨second.parse.trans first.parse, second.keeps.trans first.keeps, second.custom.trans first.custom⟩

theorem assignConsistent (s : Session α) {id : String} (number : isNumber id = true) :
    Consistent root (setTlsPaths root (s.assign id)) where
  number := number
  paths := rfl
  last := by
    change (s.decisions.entered ++ [id]).getLast?.getD "1" = id
    rw [List.getLast?_concat]
    rfl

theorem makeResultDirsConsistent (tree : FileTree α) (holds : Consistent root s) :
    Consistent root (makeResultDirs { s with tree := tree }) :=
  ⟨holds.number, holds.paths, holds.last⟩

theorem handleMachineIdClashSpec (holds : Consistent root s)
    (handled : handleMachineIdClash root s answers = some (s', rest)) : Consistent root s' ∧ SameFlags s s' := by
  induction answers using WellFounded.induction (measure List.length).wf generalizing s with
  | _ answers ih =>
    cases answers with
    | nil =>
      rw [handleMachineIdClash] at handled
      cases handled
    | cons answer answers =>
      rw [handleMachineIdClash] at handled
      split at handled
      · cases handled
        exact ⟨makeResultDirsConsistent _ holds, rfl, rfl, rfl⟩
      · split at handled
        · split at handled
          · cases handled
          · next id more got =>
            have spec := getMachineNumSpec got
            have assigned : Consistent root (setTlsPaths root (s.assign id)) := assignConsistent s spec.2
            have flags : SameFlags s (setTlsPaths root (s.assign id)) := ⟨rfl, rfl, rfl⟩
            dsimp only at handled
            split at handled
            · have later := ih more (show more.length < (answer :: answers).length by
                have := spec.1
                rw [List.length_cons]
                omega) assigned handled
              exact ⟨later.1, flags.trans later.2⟩
            · cases handled
              exact ⟨assigned, flags⟩
        · exact ih answers (Nat.lt_succ_self _) holds handled

theorem configureResultsDirSpec (number : isNumber s.machineNum = true) (last : s.decisions.lastId = s.machineNum)
    (keeps : s.decisions.keepsParsed = false)
    (configured : configureResultsDir root s answers = some (s', rest)) :
    Consistent root s' ∧ s'.decisions.custom = s.decisions.custom ∧
      s'.parsedResultsPath =
        some (testDataDir root ++ ["results", "tls_performance", "machine_" ++ s'.machineNum]) ∧
      s'.parseResults = (s.parseResults && !s'.decisions.keepsParsed) := by
  have begun : Consistent root (setTlsPaths root s) := ⟨number, rfl, last⟩
  have flags : SameFlags s (setTlsPaths root s) := ⟨rfl, rfl, rfl⟩
  simp only [configureResultsDir, Option.bind_eq_bind, Option.bind_eq_some_iff, Prod.exists] at configured
  obtain ⟨mid, remaining, handled, configured⟩ := configured
  have middle : Consistent root mid ∧ SameFlags s mid := by
    unfold configureUpResults at handled
    split at handled
    · split at handled
      · have spec := handleMachineIdClashSpec begun handled
        exact ⟨spec.1, flags.trans spec.2⟩
      · cases handled
        exact ⟨makeResultDirsConsistent _ begun, rfl, rfl, rfl⟩
    · cases handled
      exact ⟨makeResultDirsConsistent _ begun, rfl, rfl, rfl⟩
  obtain ⟨consistent, same⟩ := middle
  have kept : mid.decisions.keepsParsed = false := same.keeps.trans keeps
  have parses : mid.parseResults = (s.parseResults && !mid.decisions.keepsParsed) := by
    rw [kept, same.parse]
    exact (Bool.and_true _).symm
  unfold configureParsedResults at configured
  dsimp only at configured
  split at configured
  · split at configured
    · cases configured
    · cases configured
      exact ⟨⟨consistent.number, consistent.paths, consistent.last⟩, same.custom, rfl, parses⟩
    · cases configured
      exact ⟨⟨consistent.number, consistent.paths, consistent.last⟩, same.custom, rfl, (Bool.and_false _).symm⟩
  · cases configured
    exact ⟨⟨consistent.number, consistent.paths, consistent.last⟩, same.custom, rfl, parses⟩

theorem configureMachineIdSpec {tree : FileTree α} {parse : Bool}
    (configured : configureMachineId root (start tree parse) answers = some (s', rest)) :
    isNumber s'.decisions.lastId = true ∧ s'.paths = some (tlsPaths root s'.decisions.lastId) ∧
      s'.parsedResultsPath =
        some (testDataDir root ++ ["results", "tls_performance", "machine_" ++ s'.decisions.lastId]) ∧
      s'.parseResults = (parse && !s'.decisions.keepsParsed) ∧
      s'.machineNum = if s'.decisions.custom then s'.decisions.lastId else "1" := by
  unfold configureMachineId at configured
  split at configured
  · cases configured
  · simp only [Option.bind_eq_bind, Option.bind_eq_some_iff, Prod.exists] at configured
    obtain ⟨id, answers, got, configured⟩ := configured
    obtain ⟨consistent, custom, parsed, parses⟩ :=
      configureResultsDirSpec (getMachineNumSpec got).2 rfl rfl configured
    have number := consistent.number
    have paths := consistent.paths
    rw [← consistent.last] at number paths parsed
    refine ⟨number, paths, parsed, parses, ?_⟩
    rw [custom, ← consistent.last]
    rfl
  · simp only [Option.bind_eq_bind, Option.bind_eq_some_iff, Prod.exists] at configured
    obtain ⟨s'', answers, configured, same⟩ := configured
    cases same
    have default_ : isNumber "1" = true := by decide
    obtain ⟨consistent, custom, parsed, parses⟩ := configureResultsDirSpec default_ rfl rfl configured
    have number := consistent.number
    have paths := consistent.paths
    rw [← consistent.last] at number paths parsed
    refine ⟨number, paths, parsed, parses, ?_⟩
    change "1" = _
    rw [custom]
    rfl

theorem machineInj {id id' : String} {folders : Path}
    (same : folders ++ ["machine_" ++ id] = folders ++ ["machine_" ++ id']) : id = id' := by
  have letters := congrArg String.toList (List.cons.inj (List.append_cancel_left same)).1
  rw [String.toList_append, String.toList_append] at letters
  exact String.toList_inj.mp (List.append_cancel_left letters)

theorem folderOf (kind id : String) : testDataDir root ++ [kind, "tls_performance", "machine_" ++ id] =
    testDataDir root ++ [kind, "tls_performance"] ++ ["machine_" ++ id] := by
  rw [List.append_assoc]
  rfl

theorem upResultsOf {n : Nat} {id : String} :
    (tlsPaths root id).machineResults = machUpResultsDir root n ↔ n.repr = id := by
  refine ⟨fun same => ?_, fun same => same ▸ rfl⟩
  change testDataDir root ++ [_, _, _] = testDataDir root ++ [_, _, _] at same
  rw [folderOf, folderOf] at same
  exact (machineInj same).symm

theorem resultsOf {n : Nat} {id : String} :
    testDataDir root ++ ["results", "tls_performance", "machine_" ++ id] = machResultsDir root n ↔ n.repr = id := by
  refine ⟨fun same => ?_, fun same => same ▸ rfl⟩
  rw [machResultsDir, folderOf, folderOf] at same
  exact (machineInj same).symm

/-- The last identifier entered has no leading zero, and it is the default where the user chose the
default. -/
def Decisions.Steady (d : Decisions) : Prop :=
  Decimal.NoLeadingZero d.lastId ∧ (d.custom = false → d.lastId = "1")

theorem configureParses (root : Path) (tree : FileTree α) (parse : Bool) (answers : List String) (s : Session α)
    (rest : List String)
    (accepted : configureTestOptions root (start tree parse) answers = some (.client, s, rest)) :
    ParsedWhereStored root s ↔ parse = false ∨ s.decisions.keepsParsed = true ∨ s.decisions.Steady := by
  simp only [configureTestOptions, configureClient, Option.bind_eq_bind, Option.bind_eq_some_iff, Prod.exists] at accepted
  obtain ⟨machineType, answers₁, type, s₁, answers₂, client, numRun, answers₃, runs, same⟩ := accepted
  cases same
  simp only [Option.bind_eq_some_iff, Prod.exists] at client
  obtain ⟨s₂, answers₄, configured, timeNum, answers₅, timed, speedNum, answers₆, sped, same⟩ := client
  cases same
  obtain ⟨number, paths, parsed, parses, machineNum⟩ := configureMachineIdSpec configured
  generalize last : s₂.decisions.lastId = id at number paths parsed machineNum
  have default_ : isNumber "1" = true ∧ (Decimal.value "1").repr = "1" ∧ Decimal.NoLeadingZero "1" := by decide
  have handed : isNumber s₂.machineNum = true := by
    rw [machineNum]
    split
    · exact number
    · exact default_.1
  have agrees : (Decimal.value s₂.machineNum).repr = id ↔ s₂.decisions.Steady := by
    unfold Decisions.Steady
    rw [last, machineNum]
    cases s₂.decisions.custom with
    | true =>
      rw [if_pos rfl, Decimal.reprValue number]
      exact (and_iff_left nofun).symm
    | false =>
      rw [if_neg Bool.false_ne_true, default_.2.1]
      constructor
      · rintro rfl
        exact ⟨default_.2.2, fun _ => rfl⟩
      · intro steady
        exact (steady.2 rfl).symm
  unfold ParsedWhereStored handleResultParsing handleArgs
  dsimp only
  rw [parses, paths, parsed]
  cases parse with
  | false => exact ⟨fun _ => .inl rfl, fun _ machineId replace called => by cases called⟩
  | true =>
    cases s₂.decisions.keepsParsed with
    | true => exact ⟨fun _ => .inr (.inl rfl), fun _ machineId replace called => by cases called⟩
    | false =>
      constructor
      · intro stored
        obtain ⟨n, read, up, -⟩ := stored _ _ rfl
        rw [if_pos handed] at read
        cases read
        exact .inr (.inr (agrees.mp (upResultsOf.mp (Option.some.inj up))))
      · intro condition machineId replace called
        have steady : s₂.decisions.Steady := by
          rcases condition with off | kept | steady
          · cases off
          · cases kept
          · exact steady
        cases called
        rw [if_pos handed]
        have same := agrees.mpr steady
        exact ⟨_, rfl, congrArg some (upResultsOf.mpr same), congrArg some (resultsOf.mpr same)⟩

theorem configureParsesFresh : ParsedWhereStored [] ((configureTestOptions [] (start (fun _ => none : FileTree Unit) true)
      ["2", "y", "5", "10", "10", "1"]).get rfl).2.1 ↔ true = false ∨ ((configureTestOptions []
      (start (fun _ => none : FileTree Unit) true) ["2", "y", "5", "10", "10", "1"]).get rfl).2.1.decisions.keepsParsed =
      true ∨ ((configureTestOptions [] (start (fun _ => none : FileTree Unit) true)
      ["2", "y", "5", "10", "10", "1"]).get rfl).2.1.decisions.Steady :=
  configureParses [] (fun _ => none) true ["2", "y", "5", "10", "10", "1"] _ [] rfl

def firstMachineTree : FileTree Unit := fun path =>
  if path = ["test_data"] ∨ path = ["test_data", "up_results"] ∨
      path = ["test_data", "up_results", "tls_performance"] ∨
      path = ["test_data", "up_results", "tls_performance", "machine_1"] then some .dir else none

theorem handleMachineIdClashReassign {id : String} (got : getMachineNum answers = some (id, rest))
    (unused : (setTlsPaths root (s.assign id)).hasResults = false) :
    handleMachineIdClash root s ("2" :: answers) = some (setTlsPaths root (s.assign id), rest) := by
  have other : ("2" : String) ≠ "1" := by decide
  rw [handleMachineIdClash, if_neg other, if_pos rfl]
  split
  · next none_ => rw [got] at none_; cases none_
  · next id' rest' got' =>
    rw [got] at got'
    cases got'
    exact if_neg (ne_true_of_eq_false unused)

def reassignedToSeven : Session Unit :=
  { setTlsPaths [] ((setTlsPaths [] (start firstMachineTree true)).assign "7") with
    machineNum := "1"
    parsedResultsPath := some ["test_data", "results", "tls_performance", "machine_7"]
    timeNum := "5"
    speedNum := "5"
    numRun := "1" }

theorem reassignedDefaultDiffers : ¬ ∀ tree : FileTree Unit, ∀ answers s rest,
    configureTestOptions [] (start tree true) answers = some (.client, s, rest) → ParsedWhereStored [] s := by
  intro stored
  have clash : handleMachineIdClash [] (setTlsPaths [] (start firstMachineTree true)) ["2", "7", "5", "5", "1"] =
      some (setTlsPaths [] ((setTlsPaths [] (start firstMachineTree true)).assign "7"), ["5", "5", "1"]) :=
    handleMachineIdClashReassign rfl (by decide)
  have results : configureResultsDir [] (start firstMachineTree true) ["2", "7", "5", "5", "1"] =
      some ({ setTlsPaths [] ((setTlsPaths [] (start firstMachineTree true)).assign "7") with
        parsedResultsPath := some ["test_data", "results", "tls_performance", "machine_7"] }, ["5", "5", "1"]) := by
    have stored : configureUpResults [] (setTlsPaths [] (start firstMachineTree true)) ["2", "7", "5", "5", "1"] =
        handleMachineIdClash [] (setTlsPaths [] (start firstMachineTree true)) ["2", "7", "5", "5", "1"] := rfl
    rw [configureResultsDir, stored, clash]
    rfl
  have configured : configureMachineId [] (start firstMachineTree true) ["n", "2", "7", "5", "5", "1"] =
      (configureResultsDir [] (start firstMachineTree true) ["2", "7", "5", "5", "1"]).bind
        fun (s, answers) => some ({ s with machineNum := "1" }, answers) := rfl
  rw [results] at configured
  have run : configureTestOptions [] (start firstMachineTree true) ["2", "n", "2", "7", "5", "5", "1"] =
      some (.client, reassignedToSeven, []) := by
    have client : configureClient [] (start firstMachineTree true) ["n", "2", "7", "5", "5", "1"] =
        some ({ reassignedToSeven with numRun := "" }, ["1"]) := by
      rw [configureClient, configured]
      rfl
    change (configureClient [] (start firstMachineTree true) ["n", "2", "7", "5", "5", "1"]).bind _ = _
    rw [client]
    rfl
  obtain ⟨n, read, up, -⟩ := stored _ _ _ _ run _ _ rfl
  have one : n = 1 := (Option.some.inj read).symm
  rw [one] at up
  have differ : some (tlsPaths [] "7").machineResults ≠ some (machUpResultsDir [] 1) := by decide
  exact differ up

end Armor.Tls.MachineId
