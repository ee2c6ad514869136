import Armor.Lib.Recording
import Armor.Results.HandshakeMetrics
import Armor.Tls.Redelivery

/-! The output files of the handshake tests, from the `s_time` processes of the client to the tables of
the parser. Every attempt of a test writes the file of its combination anew. -/
namespace Armor.Tls
open Recording (record recordAll)
open Results (Row handshakeFile classicFile)

/-- `${sig/:/_}` -/
def underscoreColon : List Char → List Char
  | [] => []
  | c :: rest => if c = ':' then '_' :: rest else c :: underscoreColon rest

def sigName (sig : String) : String := String.ofList (underscoreColon sig.toList)

/-- `$handshake_dir/$output_name`, the directory by its test type. -/
def outputFile (test : Combination) : TestType × String :=
  match test.testType with
  | .classic => (.classic, classicFile test.runNum test.outer test.inner)
  | type => (type, handshakeFile test.runNum (sigName test.outer) test.inner)

abbrev Files := TestType × String → Option (List String)

structure Campaign where
  control : State
  files : Files

/-- A step of the scripts, with the lines that `s_time` prints if it runs. -/
structure Timed where
  attempt : Attempt
  output : List String

def writes (s : State) : Attempt → Option (TestType × String)
  | .proceeds (.attempt _) => s.client.currentTest.map outputFile
  | _ => none

def timedStep (s : Campaign) (a : Timed) : Option Campaign :=
  (retryStep s.control a.attempt).map fun control =>
    ⟨control, (writes s.control a.attempt).elim s.files fun file => record s.files (file, a.output)⟩

def results (s : Campaign) (a : Timed) : Option (Combination × List String) :=
  (passes s.control a.attempt).map fun test => (test, a.output)

def resultFiles (log : List (Combination × List String)) : List ((TestType × String) × List String) :=
  log.map fun result => (outputFile result.1, result.2)

structure Holds (lists : Lists) (files : Files) (s : Campaign) (log : List (Combination × List String)) : Prop where
  position : Position s.control
  logged : ∃ done, combinations lists = done ++ tests s.control.client.todo ∧ log.map Prod.fst = done ++ pending s.control.client
  written : ∀ file, s.files file = recordAll files (resultFiles log) file ∨
    ∃ test, (tests s.control.client.todo).head? = some test ∧ pending s.control.client = [] ∧ file = outputFile test

variable {lists : Lists} {files : Files}

theorem loggedStep {s s' : State} {a : Attempt} {log : List Combination} (position : Position s) (moves : retryStep s a = some s')
    (logged : ∃ done, combinations lists = done ++ tests s.client.todo ∧ log = done ++ pending s.client) :
    ∃ done, combinations lists = done ++ tests s'.client.todo ∧ log ++ (passes s a).toList = done ++ pending s'.client := by
  obtain ⟨done, left, same⟩ := logged
  refine ⟨done ++ (records s a).toList, ?_, ?_⟩
  · rw [List.append_assoc, ← recordsLeft moves]
    exact left
  · rw [same, List.append_assoc, List.append_assoc, passesRecorded position moves]

theorem quietStep {s s' : State} {a : Attempt} (position : Position s) (moves : retryStep s a = some s')
    (silent : passes s a = none)
    (clean : pending s.client = []) : pending s'.client = [] ∧ tests s'.client.todo = tests s.client.todo := by
  have both := passesRecorded position moves
  rw [clean, silent] at both
  obtain ⟨unrecorded, clean'⟩ := List.append_eq_nil_iff.mp both.symm
  have left := recordsLeft moves
  rw [unrecorded] at left
  exact ⟨clean', left.symm⟩

theorem attemptMoves {s s' : State} {passed : Bool} (moves : retryStep s (.proceeds (.attempt passed)) = some s') :
    s.client.point = .measure ∧ s'.client = s.client.attempted passed := by
  simp only [retryStep, step, Option.ite_none_right_eq_some] at moves
  obtain ⟨measures, same⟩ := moves
  cases same
  exact ⟨measures, rfl⟩

theorem writesElsewhere {s : State} {a : Attempt} (elsewhere : ∀ passed, a ≠ .proceeds (.attempt passed)) : writes s a = none := by
  cases a with
  | again sender => rfl
  | proceeds action =>
    cases action with
    | attempt passed => exact absurd rfl (elsewhere passed)
    | _ => rfl

theorem passesElsewhere {s : State} {a : Attempt} (elsewhere : a ≠ .proceeds (.attempt true)) : passes s a = none := by
  unfold passes
  split
  · exact absurd rfl elsewhere
  · rfl

theorem attemptWritten {s : Campaign} {a : Timed} {log : List (Combination × List String)} (holds : Holds lists files s log)
    {passed : Bool} (timed : a.attempt = .proceeds (.attempt passed)) (measures : s.control.client.point = .measure)
    {control : State} (client : control.client = s.control.client.attempted passed) {test : Combination}
    {todo : List Item}
    (head : s.control.client.todo = .test test :: todo) (file : TestType × String) :
    ((writes s.control a.attempt).elim s.files fun file => record s.files (file, a.output)) file =
        recordAll files (resultFiles (log ++ (results s a).toList)) file ∨
      ∃ test, (tests control.client.todo).head? = some test ∧ pending control.client = [] ∧ file = outputFile test := by
  have current : s.control.client.currentTest = some test := by
    unfold Client.currentTest
    rw [head]
  have written : writes s.control a.attempt = some (outputFile test) := by
    rw [timed]
    exact congrArg (Option.map outputFile) current
  have left : tests control.client.todo = test :: tests todo := by
    rw [client, clientAttemptedTodo, head]
    rfl
  have waits := (pendingAttempted measures passed).2
  rw [written, Option.elim_some]
  -- the file that was yet to pass can only be that of the test under way
  have other : file ≠ outputFile test → s.files file = recordAll files (resultFiles log) file := by
    intro elsewhere
    rcases holds.written file with same | ⟨dirty, first, -, name⟩
    · exact same
    · rw [head] at first
      cases first
      exact absurd name elsewhere
  cases passed with
  | true =>
    left
    have logged : results s a = some (test, a.output) := by
      rw [results, timed]
      exact congrArg (Option.map fun test => (test, a.output)) current
    rw [logged, Option.toList_some]
    unfold resultFiles
    rw [List.map_append, List.map_singleton, Recording.recordAllNext]
    by_cases own : file = outputFile test
    · rw [own]
      exact (Recording.recordOwn (outputFile test, a.output)).trans (Recording.recordOwn (outputFile test, a.output)).symm
    · exact (Recording.recordOther own).trans ((other own).trans (Recording.recordOther own).symm)
  | false =>
    have unlogged : results s a = none := by
      rw [results, timed]
      rfl
    rw [unlogged, Option.toList_none, List.append_nil]
    by_cases own : file = outputFile test
    · right
      refine ⟨test, by rw [left]; rfl, ?_, own⟩
      rw [client, waits]
      rfl
    · left
      exact (Recording.recordOther own).trans (other own)

theorem holdsStep {s s' : Campaign} {a : Timed} {log : List (Combination × List String)} (holds : Holds lists files s log)
    (moves : timedStep s a = some s') : Holds lists files s' (log ++ (results s a).toList) := by
  obtain ⟨control, steps, rfl⟩ := Option.map_eq_some_iff.mp moves
  have logged := loggedStep holds.position steps holds.logged
  have names : (log ++ (results s a).toList).map Prod.fst = log.map Prod.fst ++ (passes s.control a.attempt).toList := by
    rw [List.map_append, results]
    cases passes s.control a.attempt <;> rfl
  refine ⟨positionStep holds.position steps, ?_, ?_⟩
  · rw [names]
    exact logged
  · intro file
    by_cases timed : ∃ passed, a.attempt = .proceeds (.attempt passed)
    · obtain ⟨passed, timed⟩ := timed
      rw [timed] at steps
      obtain ⟨measures, client⟩ := attemptMoves steps
      obtain ⟨test, todo, head, -⟩ := measuredOwn holds.position measures
      exact attemptWritten holds timed measures client head file
    · have unwritten : writes s.control a.attempt = none := writesElsewhere fun passed here => timed ⟨passed, here⟩
      have silent : passes s.control a.attempt = none := passesElsewhere fun here => timed ⟨true, here⟩
      have unlogged : results s a = none := by rw [results, silent, Option.map_none]
      rw [unlogged, Option.toList_none, List.append_nil, unwritten, Option.elim_none]
      rcases holds.written file with same | ⟨test, head, clean, name⟩
      · exact .inl same
      · obtain ⟨clean', left⟩ := quietStep holds.position steps silent clean
        exact .inr ⟨test, by rw [left]; exact head, clean', name⟩

theorem campaignHolds {timeds : List Timed} {s : Campaign}
    (run : Run.execute timedStep ⟨initial lists lists, files⟩ timeds = some s) :
    Holds lists files s (Run.log results timedStep ⟨initial lists lists, files⟩ timeds) := by
  have quiet : pending (initial lists lists).client = [] := pendingEnter _ _
  have start : Holds lists files ⟨initial lists lists, files⟩ [] :=
    ⟨.inStep (initialInStep lists), ⟨[], (initialTests lists).1, quiet.symm⟩, fun file => .inl rfl⟩
  exact Run.executeLogs holdsStep run start

theorem finishedFiles {s : Campaign} {log : List (Combination × List String)} (holds : Holds lists files s log)
    (ended : s.control.client.point = .finished) :
    log.map Prod.fst = combinations lists ∧ s.files = recordAll files (resultFiles log) := by
  have none_ := finishedTodo holds.position ended
  have silent : pending s.control.client = [] := pendingElsewhere (by rw [ended]; exact nofun)
  constructor
  · obtain ⟨done, left, same⟩ := holds.logged
    rw [same, silent, left, none_]
    rfl
  · funext file
    rcases holds.written file with same | ⟨test, head, -, -⟩
    · exact same
    · rw [none_] at head
      cases head

theorem campaignFiles (lists : Lists) (files : Files) (timeds : List Timed) (s : Campaign)
    (run : Run.execute timedStep ⟨initial lists lists, files⟩ timeds = some s) (ended : s.control.client.point = .finished) :
    let log := Run.log results timedStep ⟨initial lists lists, files⟩ timeds
    log.map Prod.fst = combinations lists ∧ s.files = recordAll files (resultFiles log) :=
  finishedFiles (campaignHolds run) ended

def retriedWith (output : List String) : List Timed :=
  let quiet := fun action => (⟨.proceeds action, []⟩ : Timed)
  let handshake := [.send .client, .deliver, .send .server, .deliver].map quiet
  toFirstTest.map quiet ++ [⟨.proceeds (.attempt false), ["connect:errno=111"]⟩, ⟨.proceeds (.attempt true), output⟩] ++
    [.send .client, .deliver, .compute].map quiet ++ handshake ++ handshake

def retriedCampaign : List Timed := retriedWith ["passed"]

def retriedStart : Campaign := ⟨initial oneCombination oneCombination, fun _ => none⟩

theorem retriedRuns : (Run.execute timedStep retriedStart retriedCampaign).isSome = true := by decide +kernel

def retriedEnd : Campaign := (Run.execute timedStep retriedStart retriedCampaign).get retriedRuns

theorem retriedReached : Run.execute timedStep retriedStart retriedCampaign = some retriedEnd := (Option.some_get retriedRuns).symm

theorem retriedFinished : retriedEnd.control.client.point = .finished := by decide +kernel

theorem campaignFilesRetried :
    let log := Run.log results timedStep retriedStart retriedCampaign
    log.map Prod.fst = combinations oneCombination ∧ retriedEnd.files = recordAll (fun _ => none) (resultFiles log) :=
  campaignFiles oneCombination _ retriedCampaign retriedEnd retriedReached retriedFinished

/-- No two combinations write one file, and no listed signature has a colon, which only the client replaces. -/
structure Unambiguous (lists : Lists) : Prop where
  apart : ((combinations lists).map outputFile).Nodup
  plain : ∀ sig ∈ lists.sigAlgs ++ lists.hybridSigAlgs, sigName sig = sig

section Read

variable {log : List (Combination × List String)}

theorem resultsKept (unambiguous : Unambiguous lists) (passed : log.map Prod.fst = combinations lists) {test : Combination}
    (listed : test ∈ combinations lists) :
    ∃ output, log.lookup test = some output ∧ recordAll files (resultFiles log) (outputFile test) = some output := by
  rw [← passed] at listed
  obtain ⟨entry, member, rfl⟩ := List.mem_map.mp listed
  have names : (resultFiles log).map Prod.fst = (combinations lists).map outputFile := by
    rw [← passed, resultFiles, List.map_map, List.map_map]
    rfl
  have apart : ((resultFiles log).map Prod.fst).Nodup := names ▸ unambiguous.apart
  have tests : (log.map Prod.fst).Nodup := by
    rw [passed]
    exact List.Nodup.of_map _ unambiguous.apart
  refine ⟨entry.2, Recording.lookupUnique tests member, ?_⟩
  have kept : (outputFile entry.1, entry.2) ∈ resultFiles log := List.mem_map_of_mem member
  exact Recording.recordAllUnique apart kept

theorem foldlMCongr {α β ε : Type} {items : List α} {step step' : β → α → Except ε β}
    (same : ∀ item ∈ items, ∀ table, step table item = step' table item) (table : β) :
    items.foldlM step table = items.foldlM step' table := by
  induction items generalizing table with
  | nil => rfl
  | cons item rest ih =>
    rw [List.foldlM_cons, List.foldlM_cons, same item List.mem_cons_self]
    exact congrArg _ (funext fun next => ih (fun item member => same item (List.mem_cons_of_mem _ member)) next)

theorem baseRowsCongr {pd : Results.DataFrames} {headers : Row} {outers inners : List String}
    {file file' : String → String → Option (List String)}
    (same : ∀ outer ∈ outers, ∀ inner ∈ inners, file outer inner = file' outer inner) :
    Results.baseRows pd headers outers inners file = Results.baseRows pd headers outers inners file' :=
  foldlMCongr (fun outer listed table => foldlMCongr (fun inner listed' table => by rw [same outer listed inner listed']) table) []

theorem combinationListed {test : Combination} (low : 1 ≤ test.runNum) (high : test.runNum ≤ lists.numRun)
    (listed : match test.testType with
      | .pqc => test.outer ∈ lists.sigAlgs ∧ test.inner ∈ lists.kemAlgs
      | .hybrid => test.outer ∈ lists.hybridSigAlgs ∧ test.inner ∈ lists.hybridKemAlgs
      | .classic => test.outer ∈ lists.ciphers ∧ test.inner ∈ lists.classicAlgs) : test ∈ combinations lists := by
  obtain ⟨runNum, testType, outer, inner⟩ := test
  refine List.mem_flatMap.mpr ⟨runNum, List.mem_range'_1.mpr ⟨low, by dsimp only at high; omega⟩, ?_⟩
  have pair : ∀ (type : TestType) {outers inners : List String}, outer ∈ outers → inner ∈ inners →
      (⟨runNum, type, outer, inner⟩ : Combination) ∈ outers.flatMap fun first => inners.map fun second =>
        ⟨runNum, type, first, second⟩ :=
    fun type _ _ first second => List.mem_flatMap.mpr ⟨outer, first, List.mem_map_of_mem second⟩
  cases testType with
  | pqc => exact List.mem_append_left _ (List.mem_append_left _ (pair .pqc listed.1 listed.2))
  | hybrid => exact List.mem_append_left _ (List.mem_append_right _ (pair .hybrid listed.1 listed.2))
  | classic => exact List.mem_append_right _ (pair .classic listed.1 listed.2)

theorem pqcTables {pd : Results.DataFrames} {runNum : Nat} (typePrefix : Results.TypePrefix)
    {sigAlgs kemAlgs : List String} {upResults : Results.UpResults}
    (present : upResults.isNone = false) {file : String → String → Option (List String)}
    (files : ∀ sig ∈ sigAlgs, ∀ kem ∈ kemAlgs, Results.openFile upResults (handshakeFile runNum sig kem) = file sig kem) :
    Results.pqcBasedPreProcessing pd runNum typePrefix sigAlgs kemAlgs upResults =
      (Results.baseRows pd Results.pqcBasedHeaders sigAlgs kemAlgs file).map
        (Prod.mk (typePrefix.text ++ "_base_results_run_" ++ runNum.repr ++ ".csv")) := by
  unfold Results.pqcBasedPreProcessing
  rw [present, baseRowsCongr files, if_neg fun both => nomatch both.2]
  cases Results.baseRows pd Results.pqcBasedHeaders sigAlgs kemAlgs file <;> rfl

end Read

theorem finishedReads (unambiguous : Unambiguous lists) {s : Campaign} {log : List (Combination × List String)}
    (holds : Holds lists files s log) (ended : s.control.client.point = .finished) {test : Combination}
    (listed : test ∈ combinations lists) : (log.lookup test).isSome = true ∧ s.files (outputFile test) = log.lookup test := by
  obtain ⟨all, recorded⟩ := finishedFiles holds ended
  obtain ⟨output, found, held⟩ := @resultsKept lists files log unambiguous all test listed
  rw [recorded, found]
  exact ⟨rfl, held⟩

theorem campaignTables (pd : Results.DataFrames) (lists : Lists) (unambiguous : Unambiguous lists) (files : Files)
    (timeds : List Timed) (s : Campaign)
    (run : Run.execute timedStep ⟨initial lists lists, files⟩ timeds = some s) (ended : s.control.client.point = .finished) :
    let log := Run.log results timedStep ⟨initial lists lists, files⟩ timeds
    let passed := fun type runNum outer inner => log.lookup ⟨runNum, type, outer, inner⟩
    let upResults := fun type => some fun name => s.files (type, name)
    (∀ test ∈ combinations lists, (log.lookup test).isSome = true) ∧
      ∀ runNum, 1 ≤ runNum → runNum ≤ lists.numRun →
        Results.pqcBasedPreProcessing pd runNum .pqc lists.sigAlgs lists.kemAlgs (upResults .pqc) =
            (Results.baseRows pd Results.pqcBasedHeaders lists.sigAlgs lists.kemAlgs (passed .pqc runNum)).map
              (Prod.mk ("pqc" ++ "_base_results_run_" ++ runNum.repr ++ ".csv")) ∧
          Results.pqcBasedPreProcessing pd runNum .hybrid lists.hybridSigAlgs lists.hybridKemAlgs (upResults .hybrid) =
            (Results.baseRows pd Results.pqcBasedHeaders lists.hybridSigAlgs lists.hybridKemAlgs (passed .hybrid runNum)).map
              (Prod.mk ("hybrid" ++ "_base_results_run_" ++ runNum.repr ++ ".csv")) ∧
          Results.classicBasedProcessing pd runNum lists.ciphers lists.classicAlgs (upResults .classic) =
            (Results.baseRows pd Results.classicHeaders lists.ciphers lists.classicAlgs (passed .classic runNum)).map
              (Prod.mk ("classic_results_run_" ++ runNum.repr ++ ".csv")) := by
  intro log passed upResults
  have kept := fun test listed => @finishedReads lists files unambiguous s log (campaignHolds run) ended test listed
  have read : ∀ test ∈ combinations lists, s.files (outputFile test) = log.lookup test := fun test listed => (kept test listed).2
  refine ⟨fun test listed => (kept test listed).1, fun runNum low high => ⟨?_, ?_, ?_⟩⟩
  · have files : ∀ sig ∈ lists.sigAlgs, ∀ kem ∈ lists.kemAlgs,
        Results.openFile (upResults .pqc) (handshakeFile runNum sig kem) = passed .pqc runNum sig kem := by
      intro sig first kem second
      refine Eq.trans ?_ (read ⟨runNum, .pqc, sig, kem⟩ (combinationListed low high ⟨first, second⟩))
      change s.files (.pqc, handshakeFile runNum sig kem) = s.files (.pqc, handshakeFile runNum (sigName sig) kem)
      rw [unambiguous.plain sig (List.mem_append_left _ first)]
    exact pqcTables .pqc rfl files
  · have files : ∀ sig ∈ lists.hybridSigAlgs, ∀ kem ∈ lists.hybridKemAlgs,
        Results.openFile (upResults .hybrid) (handshakeFile runNum sig kem) = passed .hybrid runNum sig kem := by
      intro sig first kem second
      refine Eq.trans ?_ (read ⟨runNum, .hybrid, sig, kem⟩ (combinationListed low high ⟨first, second⟩))
      change s.files (.hybrid, handshakeFile runNum sig kem) = s.files (.hybrid, handshakeFile runNum (sigName sig) kem)
      rw [unambiguous.plain sig (List.mem_append_right _ first)]
    exact pqcTables .hybrid rfl files
  · have files : ∀ cipher ∈ lists.ciphers, ∀ alg ∈ lists.classicAlgs,
        Results.openFile (upResults .classic) (classicFile runNum cipher alg) = passed .classic runNum cipher alg := by
      intro cipher first alg second
      refine Eq.trans ?_ (read ⟨runNum, .classic, cipher, alg⟩ (combinationListed low high ⟨first, second⟩))
      rfl
    unfold Results.classicBasedProcessing
    rw [baseRowsCongr files]
    cases Results.baseRows pd Results.classicHeaders lists.ciphers lists.classicAlgs (passed .classic runNum) <;> rfl

theorem campaignTablesRetried :
    let log := Run.log results timedStep retriedStart retriedCampaign
    let passed := fun type runNum outer inner => log.lookup ⟨runNum, type, outer, inner⟩
    let upResults := fun type => some fun name => retriedEnd.files (type, name)
    Results.pqcBasedPreProcessing Results.plainFrames 1 .pqc ["mldsa44"] ["mlkem512"] (upResults .pqc) =
      (Results.baseRows Results.plainFrames Results.pqcBasedHeaders ["mldsa44"] ["mlkem512"] (passed .pqc 1)).map
        (Prod.mk ("pqc" ++ "_base_results_run_" ++ (1).repr ++ ".csv")) :=
  ((campaignTables Results.plainFrames oneCombination ⟨by decide +kernel, by decide +kernel⟩
    _ retriedCampaign retriedEnd retriedReached retriedFinished).2 1
    (Nat.le_refl 1) (Nat.le_refl 1)).1

end Armor.Tls
