import Armor.Lib.Decimal
import Armor.Results.HandshakeAverages
import Armor.Tls.ResultFiles

/-! The handshake tests from the control protocol to the averages: the outputs that passed, through
the files of the client, the tables of the parser and the files of one signature, to their means. -/
namespace Armor.Tls
open Results (Row TypePrefix BaseRow TlsColumn tlsColumns Complete handshakeFile printedOutput printedComplete)

def testTypeOf : TypePrefix → TestType
  | .pqc => .pqc
  | .hybrid => .hybrid

def Lists.sigs (lists : Lists) : TypePrefix → List String
  | .pqc => lists.sigAlgs
  | .hybrid => lists.hybridSigAlgs

def Lists.kems (lists : Lists) : TypePrefix → List String
  | .pqc => lists.kemAlgs
  | .hybrid => lists.hybridKemAlgs

-- `number`: the number that `read_csv` reads in a cell
variable (number : String → Rat)

def readBase (row : Row) : BaseRow :=
  ⟨row.getD 0 "", row.getD 1 "", row.getD 2 "", fun column => number (row.getD (3 + tlsColumns.idxOf column) "")⟩

def baseResults (pd : Results.DataFrames) (typePrefix : TypePrefix) (sigAlgs kemAlgs : List String)
    (upResults : Results.UpResults) (run : Nat) :
    List BaseRow :=
  match Results.pqcBasedPreProcessing pd run typePrefix sigAlgs kemAlgs upResults with
  | .ok table => table.2.map (readBase number)
  | .error _ => []

def printedCells (output : Nat → String → String → Option (List String)) (run : Nat) (sig kem : String) (reused : Bool)
    (column : TlsColumn) : Rat :=
  number ((Results.metricCells (output run sig kem) reused).getD (tlsColumns.idxOf column) "")

variable {number}

theorem pairRead (output : Nat → String → String → Option (List String)) (run : Nat) (sig kem : String) :
    (Results.pairRows sig kem (output run sig kem)).map (readBase number) =
      Results.pairOf (printedCells number output run) sig kem := by
  have cells : ∀ (mark : String) (reused : Bool), readBase number (sig :: kem :: mark ::
      Results.metricCells (output run sig kem) reused) = ⟨sig, kem, mark, printedCells number output run sig kem reused⟩ := by
    intro mark reused
    refine congrArg (BaseRow.mk sig kem mark) (funext fun column => ?_)
    cases column <;> rfl
  rw [Results.pairRows, List.map_cons, List.map_singleton, cells, cells]
  rfl

theorem tableRead (output : Nat → String → String → Option (List String)) (run : Nat) (sigAlgs kemAlgs : List String) :
    (Results.faithfulRows sigAlgs kemAlgs (output run)).map (readBase number) =
      Results.baseTable sigAlgs kemAlgs (printedCells number output run) := by
  rw [Results.faithfulRows, Results.baseTable, List.map_flatMap]
  refine List.flatMap_congr fun sig _ => ?_
  rw [List.map_flatMap]
  exact List.flatMap_congr fun kem _ => pairRead output run sig kem

theorem averagesCongr {host : Results.Host} {sigAlgs kemAlgs : List String} {numRuns : Nat}
    {base base' : Nat → List BaseRow} (same : ∀ run ∈ Results.runs numRuns, base run = base' run) :
    Results.genPqcAvgs host sigAlgs kemAlgs numRuns (Results.runFile host sigAlgs base) =
      Results.genPqcAvgs host sigAlgs kemAlgs numRuns (Results.runFile host sigAlgs base') := by
  have tables : ∀ sig kem, ((Results.runs numRuns).mapM fun run => (Results.runFile host sigAlgs base run sig).bind
        (host.csv.select BaseRow.kemAlgorithm (Text.contains · kem))) =
      (Results.runs numRuns).mapM fun run => (Results.runFile host sigAlgs base' run sig).bind
        (host.csv.select BaseRow.kemAlgorithm (Text.contains · kem)) := by
    intro sig kem
    refine Appending.mapSame fun run listed => ?_
    rw [Results.runFile, Results.runFile, same run listed]
  unfold Results.genPqcAvgs Results.kemAverages
  simp only [tables]

section Finished

variable {lists : Lists} {files : Files} {s : Campaign} {log : List (Combination × List String)}

theorem finishedOutput (unambiguous : Unambiguous lists) (holds : Holds lists files s log)
    (ended : s.control.client.point = .finished) (typePrefix : TypePrefix) {run : Nat} (listed : run ∈ Results.runs lists.numRun)
    {sig kem : String} (sigIn : sig ∈ lists.sigs typePrefix) (kemIn : kem ∈ lists.kems typePrefix) :
    s.files (testTypeOf typePrefix, handshakeFile run sig kem) = log.lookup ⟨run, testTypeOf typePrefix, sig, kem⟩ := by
  obtain ⟨low, high⟩ := Results.runsMember.mp listed
  cases typePrefix with
  | pqc =>
    have read := (finishedReads unambiguous holds ended (@combinationListed lists ⟨run, .pqc, sig, kem⟩ low high ⟨sigIn, kemIn⟩)).2
    change s.files (.pqc, handshakeFile run (sigName sig) kem) = _ at read
    rwa [unambiguous.plain sig (List.mem_append_left _ sigIn)] at read
  | hybrid =>
    have read := (finishedReads unambiguous holds ended (@combinationListed lists ⟨run, .hybrid, sig, kem⟩ low high
      ⟨sigIn, kemIn⟩)).2
    change s.files (.hybrid, handshakeFile run (sigName sig) kem) = _ at read
    rwa [unambiguous.plain sig (List.mem_append_right _ sigIn)] at read

theorem finishedBase {pd : Results.DataFrames} (unambiguous : Unambiguous lists) (holds : Holds lists files s log)
    (ended : s.control.client.point = .finished) (printed : ∀ result ∈ log, Complete (some result.2)) (typePrefix : TypePrefix)
    {run : Nat} (listed : run ∈ Results.runs lists.numRun) :
    baseResults number pd typePrefix (lists.sigs typePrefix) (lists.kems typePrefix)
        (some fun name => s.files (testTypeOf typePrefix, name)) run =
      Results.baseTable (lists.sigs typePrefix) (lists.kems typePrefix)
        (printedCells number (fun run sig kem => log.lookup ⟨run, testTypeOf typePrefix, sig, kem⟩) run) := by
  let output := fun run sig kem => log.lookup ⟨run, testTypeOf typePrefix, sig, kem⟩
  have read : ∀ sig ∈ lists.sigs typePrefix, ∀ kem ∈ lists.kems typePrefix,
      Results.openFile (some fun name => s.files (testTypeOf typePrefix, name)) (handshakeFile run sig kem) = output run sig kem :=
    fun sig sigIn kem kemIn => finishedOutput unambiguous holds ended typePrefix listed sigIn kemIn
  have complete : ∀ sig kem, Complete (output run sig kem) := by
    intro sig kem lines found
    obtain ⟨before, after, split, -⟩ := List.lookup_eq_some_iff.mp found
    have member : (_, lines) ∈ log := split ▸ List.mem_append_right before List.mem_cons_self
    exact printed _ member lines rfl
  have rows := (@Results.baseRowsExact pd _ Results.pqcHeadersEight (lists.sigs typePrefix) (lists.kems typePrefix)
    (output run)).mpr
    fun sig _ kem _ => complete sig kem
  rw [baseResults, pqcTables typePrefix rfl read, rows]
  exact tableRead output run (lists.sigs typePrefix) (lists.kems typePrefix)

end Finished

theorem handshakeCampaign (host : Results.Host) (pd : Results.DataFrames) (number : String → Rat) (lists : Lists)
    (unambiguous : Unambiguous lists) (files : Files) (timeds : List Timed) (s : Campaign)
    (run : Run.execute timedStep ⟨initial lists lists, files⟩ timeds = some s) (ended : s.control.client.point = .finished)
    (printed : ∀ result ∈ Run.log results timedStep ⟨initial lists lists, files⟩ timeds, Complete (some result.2))
    (positive : 0 < lists.numRun) (typePrefix : TypePrefix) (distinct : (lists.sigs typePrefix).Nodup)
    (fit : Results.FilesFit host (lists.sigs typePrefix) (lists.kems typePrefix) lists.numRun)
    (averages : Results.AveragesFit host (lists.sigs typePrefix) (lists.kems typePrefix)) :
    let log := Run.log results timedStep ⟨initial lists lists, files⟩ timeds
    let output := fun runNum sig kem => log.lookup ⟨runNum, testTypeOf typePrefix, sig, kem⟩
    let base := baseResults number pd typePrefix (lists.sigs typePrefix) (lists.kems typePrefix)
      (some fun name => s.files (testTypeOf typePrefix, name))
    Results.genPqcAvgs host (lists.sigs typePrefix) (lists.kems typePrefix) lists.numRun
        (Results.runFile host (lists.sigs typePrefix) base) =
      some ((lists.sigs typePrefix).map fun sig => (sig, (lists.kems typePrefix).flatMap fun kem =>
        Results.ownTlsRows lists.numRun (printedCells number output) sig kem)) := by
  intro log output base
  have tables : ∀ runNum ∈ Results.runs lists.numRun, base runNum =
      Results.baseTable (lists.sigs typePrefix) (lists.kems typePrefix) (printedCells number output runNum) :=
    fun runNum listed => finishedBase unambiguous (campaignHolds run) ended printed typePrefix listed
  rw [averagesCongr tables]
  exact Results.averagesExactOf distinct positive fit averages

def printedCampaign : List Timed := retriedWith printedOutput

theorem printedRuns : (Run.execute timedStep retriedStart printedCampaign).isSome = true := by decide +kernel

def printedEnd : Campaign := (Run.execute timedStep retriedStart printedCampaign).get printedRuns

theorem printedReached : Run.execute timedStep retriedStart printedCampaign = some printedEnd := (Option.some_get printedRuns).symm

theorem printedFinished : printedEnd.control.client.point = .finished := by decide +kernel

theorem printedLog : Run.log results timedStep retriedStart printedCampaign =
    [(⟨1, .pqc, "mldsa44", "mlkem512"⟩, printedOutput)] := by decide +kernel

theorem printedAll : ∀ result ∈ Run.log results timedStep retriedStart printedCampaign, Complete (some result.2) := by
  rw [printedLog]
  intro result member
  rw [List.mem_singleton.mp member]
  exact printedComplete

def printedNumber (text : String) : Rat :=
  if text = "0.34" then 34 / 100
  else if text = "8.82" then 882 / 100
  else if text = "0.50" then 50 / 100
  else if text = "8.00" then 8
  else Decimal.value text

theorem retriedFound : Results.SigsFound Results.plainHost.compile ["mldsa44"] ["mlkem512"] := by
  intro sig member
  rw [List.mem_singleton.mp member]
  refine ⟨_, rfl, fun _ other otherIn => ?_⟩
  rw [List.mem_singleton.mp otherIn]
  exact ⟨fun _ => rfl, fun _ => Text.containsRefl _⟩

theorem retriedFirst : Results.KemsFirst ["mlkem512"] := by
  intro kem member
  rw [List.mem_singleton.mp member]
  decide

theorem handshakeCampaignRetried :
    let log := Run.log results timedStep retriedStart printedCampaign
    let output := fun runNum sig kem => log.lookup ⟨runNum, .pqc, sig, kem⟩
    let base := baseResults printedNumber Results.plainFrames .pqc ["mldsa44"] ["mlkem512"]
      (some fun name => printedEnd.files (.pqc, name))
    Results.genPqcAvgs Results.plainHost ["mldsa44"] ["mlkem512"] 1 (Results.runFile Results.plainHost ["mldsa44"] base) =
      some (["mldsa44"].map fun sig => (sig, ["mlkem512"].flatMap fun kem =>
        Results.ownTlsRows 1 (printedCells printedNumber output) sig kem)) :=
  handshakeCampaign Results.plainHost Results.plainFrames printedNumber oneCombination
    ⟨by decide +kernel, by decide +kernel⟩ _ printedCampaign
    printedEnd printedReached printedFinished printedAll (by decide) .pqc (by decide)
    ⟨retriedFound, by decide +kernel, by decide +kernel⟩ ⟨fun _ => retriedFirst, by decide +kernel, by decide +kernel⟩

end Armor.Tls
