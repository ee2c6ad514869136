import Armor.Results.MemoryResults
import Armor.Results.Pandas

/-! `pre_speed_processing` and `speed_processing`: the raw speed files of every run, cut down to their
bodies, and the tables written from them, three labels per listed algorithm. -/
namespace Armor.Results
open Text (startsWith strip)

variable {ρ : Type}

/-- A line: the text before its first delimiter, and its other cells, which are only stripped. -/
structure SpeedLine (ρ : Type) where
  operation : String
  cells : ρ

structure SpeedFrame (ρ : Type) where
  header : String
  rows : List (SpeedLine ρ)

structure SpeedRow (ρ : Type) where
  algorithm : String
  operation : Option String
  cells : ρ

inductive SpeedError where
  | stopIteration
  | fileNotFound
  | keyError
  | attributeError
  | mismatch
  deriving DecidableEq, Repr

/-- One file of `pre_speed_processing`, `none` without a header line: the footer is skipped, the separator is
the first row. -/
def preSpeedFile (lines : List (SpeedLine ρ)) : Option (SpeedFrame ρ) :=
  match lines.dropWhile fun line => !startsWith line.operation "Operation" with
  | [] => none
  | header :: rest => some ⟨header.operation, rest.dropLast.drop 1⟩

variable (csv : ReadCsv)

def operationCell (text : String) : Option String := if csv.missing text then none else some (strip text)

def isAlg (algs : List String) (text : String) : Bool := (operationCell csv text).any fun name => decide (name ∈ algs)

def newCol (algs : List String) : List String := algs.flatMap fun alg => List.replicate 3 alg

def insertAlgorithm (algs : List String) (kept : List (SpeedLine ρ)) : List (SpeedRow ρ) :=
  ((newCol algs).zip kept).map fun entry => ⟨entry.1, operationCell csv entry.2.operation, entry.2.cells⟩

def speedFile (algs : List String) (frame : SpeedFrame ρ) : Except SpeedError (List (SpeedRow ρ)) :=
  if strip frame.header ≠ "Operation" then .error .keyError
  -- the `str` accessor takes text columns only
  else if csv.textColumn (frame.rows.map SpeedLine.operation) = false then .error .attributeError
  else
    let kept := frame.rows.filter fun row => !isAlg csv algs row.operation
    if checkDataMismatch kept.length algs.length then .error .mismatch else .ok (insertAlgorithm csv algs kept)

def AlgKind.speedFilename (kind : AlgKind) (run : Nat) : String :=
  match kind with
  | .kem => "test_kem_speed_" ++ run.repr ++ ".csv"
  | .sig => "test_sig_speed_" ++ run.repr ++ ".csv"

def preSpeedProcessing (numRuns : Nat) (raw : String → Option (List (SpeedLine ρ))) : Option (List (String × SpeedFrame ρ)) :=
  ((halves numRuns).map fun half => half.1.speedFilename half.2).mapM fun name =>
    ((raw name).bind preSpeedFile).map fun frame => (name, frame)

structure SpeedProgress (ρ : Type) where
  written : List (String × List (SpeedRow ρ))
  stopped : Option SpeedError

def speedHalves (kemAlgs sigAlgs : List String) (upFiles : List (String × SpeedFrame ρ)) :
    List (AlgKind × Nat) → SpeedProgress ρ
  | [] => ⟨[], none⟩
  | half :: rest =>
    let name := half.1.speedFilename half.2
    match (upFiles.lookup name).elim (.error .fileNotFound) (speedFile csv (half.1.algs kemAlgs sigAlgs)) with
    | .error e => ⟨[], some e⟩
    | .ok rows =>
      let later := speedHalves kemAlgs sigAlgs upFiles rest
      ⟨(name, rows) :: later.written, later.stopped⟩

def speedProcessing (numRuns : Nat) (kemAlgs sigAlgs : List String) (upFiles : List (String × SpeedFrame ρ)) :
    SpeedProgress ρ :=
  speedHalves csv kemAlgs sigAlgs upFiles (halves numRuns)

structure Block (ρ : Type) where
  name : SpeedLine ρ
  rows : List (SpeedLine ρ)

structure SpeedFile (ρ : Type) where
  preamble : List (SpeedLine ρ)
  header : SpeedLine ρ
  separator : SpeedLine ρ
  blocks : List (Block ρ)
  footer : SpeedLine ρ
  preambleFree : ∀ line ∈ preamble, startsWith line.operation "Operation" = false
  headerStarts : startsWith header.operation "Operation" = true
  headerNamed : strip header.operation = "Operation"

namespace SpeedFile

variable (file : SpeedFile ρ)

def body : List (SpeedLine ρ) := file.blocks.flatMap fun block => block.name :: block.rows

def lines : List (SpeedLine ρ) := file.preamble ++ file.header :: file.separator :: (file.body ++ [file.footer])

def operationRows : List (SpeedLine ρ) := file.blocks.flatMap Block.rows

def labels : List String := file.blocks.flatMap fun block => List.replicate block.rows.length (strip block.name.operation)

def labelledRows : List (SpeedRow ρ) := file.blocks.flatMap fun block =>
  block.rows.map fun row => ⟨strip block.name.operation, operationCell csv row.operation, row.cells⟩

def kept (algs : List String) : List (SpeedLine ρ) := file.body.filter fun row => !isAlg csv algs row.operation

end SpeedFile

def speedResult (algs : List String) (lines : List (SpeedLine ρ)) : Except SpeedError (List (SpeedRow ρ)) :=
  (preSpeedFile lines).elim (.error .stopIteration) (speedFile csv algs)

def SpeedLabelled (algs : List String) (file : SpeedFile ρ) : Prop :=
  speedResult csv algs file.lines = .error .mismatch ∨ speedResult csv algs file.lines = .ok (file.labelledRows csv)

/-- The headers are listed, the operations are not, and the blocks give each listed algorithm its three rows in
list order. -/
structure LabelsFit (algs : List String) (file : SpeedFile ρ) : Prop where
  headers : ∀ block ∈ file.blocks, isAlg csv algs block.name.operation = true
  operations : ∀ row ∈ file.operationRows, isAlg csv algs row.operation = false
  order : file.labels = newCol algs

theorem preSpeedLines (file : SpeedFile ρ) : preSpeedFile file.lines = some ⟨file.header.operation, file.body⟩ := by
  have found : (file.lines.dropWhile fun line => !startsWith line.operation "Operation") =
      file.header :: file.separator :: (file.body ++ [file.footer]) := by
    rw [SpeedFile.lines, List.dropWhile_append_of_pos, List.dropWhile_cons_of_neg]
    · rw [file.headerStarts]
      exact Bool.false_ne_true
    · intro line member
      rw [file.preambleFree line member]
      rfl
  rw [preSpeedFile, found]
  dsimp only
  rw [← List.cons_append, List.dropLast_concat]
  rfl

def payload (line : SpeedLine ρ) : Option String × ρ := (operationCell csv line.operation, line.cells)

theorem labelledAlgorithms (file : SpeedFile ρ) : (file.labelledRows csv).map SpeedRow.algorithm = file.labels := by
  rw [SpeedFile.labelledRows, SpeedFile.labels, List.map_flatMap]
  simp only [List.map_map, Function.comp_def, List.map_const']

theorem labelledPayloads (file : SpeedFile ρ) :
    (file.labelledRows csv).map (fun row => (row.operation, row.cells)) = file.operationRows.map (payload csv) := by
  rw [SpeedFile.labelledRows, SpeedFile.operationRows, List.map_flatMap, List.map_flatMap]
  simp only [List.map_map, Function.comp_def]
  rfl

theorem rowsSame {rows other : List (SpeedRow ρ)} (algorithms : rows.map SpeedRow.algorithm = other.map SpeedRow.algorithm)
    (payloads : rows.map (fun row => (row.operation, row.cells)) = other.map fun row => (row.operation, row.cells)) :
    rows = other := by
  have zipped : ∀ rows : List (SpeedRow ρ), rows = ((rows.map SpeedRow.algorithm).zip
      (rows.map fun row => (row.operation, row.cells))).map fun entry => ⟨entry.1, entry.2.1, entry.2.2⟩ := by
    intro rows
    rw [List.zip_map', List.map_map]
    exact (List.map_id rows).symm
  rw [zipped rows, zipped other, algorithms, payloads]

theorem newColLength (algs : List String) : (newCol algs).length = algs.length * 3 := by
  rw [newCol, List.length_flatMap]
  simp only [List.length_replicate, List.map_const', List.sum_replicate_nat]

section Fits

variable {algs : List String} {file : SpeedFile ρ}

theorem keptLength (operations : ∀ row ∈ file.operationRows, isAlg csv algs row.operation = false) :
    (file.kept csv algs).length =
      file.operationRows.length + (file.blocks.filter fun block => !isAlg csv algs block.name.operation).length := by
  unfold SpeedFile.kept SpeedFile.body SpeedFile.operationRows at *
  generalize file.blocks = blocks at operations ⊢
  induction blocks with
  | nil => rfl
  | cons block blocks ih =>
    rw [List.flatMap_cons, List.forall_mem_append] at operations
    have rows : block.rows.filter (fun row => !isAlg csv algs row.operation) = block.rows :=
      List.filter_eq_self.mpr fun row member => by rw [operations.1 row member]; rfl
    have later := ih operations.2
    simp only [List.flatMap_cons, List.filter_append, List.filter_cons, List.length_append, rows] at later ⊢
    split
    · rw [List.length_cons, List.length_cons]
      omega
    · omega

theorem keptOfFits (headers : ∀ block ∈ file.blocks, isAlg csv algs block.name.operation = true)
    (operations : ∀ row ∈ file.operationRows, isAlg csv algs row.operation = false) : file.kept csv algs = file.operationRows := by
  unfold SpeedFile.kept SpeedFile.body SpeedFile.operationRows at *
  rw [List.filter_flatMap]
  refine List.flatMap_congr fun block member => ?_
  rw [List.filter_cons_of_neg (by rw [headers block member]; exact Bool.false_ne_true)]
  refine List.filter_eq_self.mpr fun row rowIn => ?_
  rw [operations row (List.mem_flatMap.mpr ⟨block, member, rowIn⟩)]
  rfl

theorem insertedAlgorithms (count : (file.kept csv algs).length = algs.length * 3) :
    (insertAlgorithm csv algs (file.kept csv algs)).map SpeedRow.algorithm = newCol algs := by
  rw [insertAlgorithm, List.map_map]
  exact List.map_fst_zip (Nat.le_of_eq ((newColLength algs).trans count.symm))

theorem insertedPayloads (count : (file.kept csv algs).length = algs.length * 3) :
    (insertAlgorithm csv algs (file.kept csv algs)).map (fun row => (row.operation, row.cells)) =
      (file.kept csv algs).map (payload csv) := by
  have seconds := List.map_snd_zip (Nat.le_of_eq (count.trans (newColLength algs).symm))
  have later := congrArg (List.map (payload csv)) seconds
  rw [List.map_map] at later
  rw [insertAlgorithm, List.map_map]
  exact later

theorem positionsLabel (count : (file.kept csv algs).length = algs.length * 3) :
    insertAlgorithm csv algs (file.kept csv algs) = file.labelledRows csv ↔ LabelsFit csv algs file := by
  have algorithms := insertedAlgorithms csv count
  have payloads := insertedPayloads csv count
  constructor
  · intro same
    rw [same] at algorithms payloads
    rw [labelledAlgorithms] at algorithms
    rw [labelledPayloads] at payloads
    have operations : ∀ row ∈ file.operationRows, isAlg csv algs row.operation = false := by
      intro row member
      obtain ⟨left, leftIn, equal⟩ := List.mem_map.mp (payloads ▸ List.mem_map_of_mem (f := payload csv) member)
      have out := (List.mem_filter.mp leftIn).2
      have cell : operationCell csv left.operation = operationCell csv row.operation := congrArg Prod.fst equal
      rwa [isAlg, cell, Bool.not_eq_true'] at out
    have lengths := congrArg List.length payloads
    rw [List.length_map, List.length_map, keptLength csv operations] at lengths
    have none_ : (file.blocks.filter fun block => !isAlg csv algs block.name.operation) = [] :=
      List.length_eq_zero_iff.mp (by omega)
    refine ⟨fun block member => ?_, operations, algorithms⟩
    have listed := List.filter_eq_nil_iff.mp none_ block member
    rwa [Bool.not_eq_true', Bool.not_eq_false] at listed
  · intro fits
    refine rowsSame ?_ ?_
    · rw [algorithms, labelledAlgorithms, fits.order]
    · rw [payloads, labelledPayloads, keptOfFits csv fits.headers fits.operations]

theorem speedResultLines (named : csv.textColumn (file.body.map SpeedLine.operation) = true) :
    speedResult csv algs file.lines =
      if checkDataMismatch (file.kept csv algs).length algs.length then .error .mismatch
      else .ok (insertAlgorithm csv algs (file.kept csv algs)) := by
  have headed : ¬ strip file.header.operation ≠ "Operation" := fun other => other file.headerNamed
  rw [speedResult, preSpeedLines, Option.elim_some, speedFile, if_neg headed, if_neg (ne_false_of_eq_true named)]
  rfl

theorem speedResultUntyped (other : csv.textColumn (file.body.map SpeedLine.operation) = false) :
    speedResult csv algs file.lines = .error .attributeError := by
  have headed : ¬ strip file.header.operation ≠ "Operation" := fun other => other file.headerNamed
  rw [speedResult, preSpeedLines, Option.elim_some, speedFile, if_neg headed, if_pos other]

theorem speedResultCounts : (∀ rows, speedResult csv algs file.lines = .ok rows →
      (file.kept csv algs).length = algs.length * 3) ∧
    (speedResult csv algs file.lines = .error .mismatch → (file.kept csv algs).length ≠ algs.length * 3) := by
  cases typed : csv.textColumn (file.body.map SpeedLine.operation) with
  | false =>
    rw [speedResultUntyped csv typed]
    exact ⟨nofun, nofun⟩
  | true =>
    rw [speedResultLines csv typed]
    by_cases count : (file.kept csv algs).length = algs.length * 3
    · rw [if_neg (checkPasses count)]
      exact ⟨fun _ _ => count, nofun⟩
    · have exits : checkDataMismatch (file.kept csv algs).length algs.length = true := decide_eq_true count
      rw [if_pos exits]
      exact ⟨nofun, fun _ => count⟩

def SpeedFits (algs : List String) (file : SpeedFile ρ) : Prop :=
  csv.textColumn (file.body.map SpeedLine.operation) = true ∧
    ((file.kept csv algs).length ≠ algs.length * 3 ∨ LabelsFit csv algs file)

theorem labelledIff : SpeedLabelled csv algs file ↔ SpeedFits csv algs file := by
  unfold SpeedLabelled SpeedFits
  cases typed : csv.textColumn (file.body.map SpeedLine.operation) with
  | false =>
    rw [speedResultUntyped csv typed]
    exact ⟨fun either => either.elim nofun nofun, fun both => nomatch both.1⟩
  | true =>
    rw [speedResultLines csv typed]
    by_cases count : (file.kept csv algs).length = algs.length * 3
    · rw [if_neg (checkPasses count), ← positionsLabel csv count]
      constructor
      · rintro (mismatch | same)
        · cases mismatch
        · exact ⟨rfl, .inr (Except.ok.inj same)⟩
      · rintro ⟨-, differ | same⟩
        · exact absurd count differ
        · exact .inr (congrArg Except.ok same)
    · have exits : checkDataMismatch (file.kept csv algs).length algs.length = true := decide_eq_true count
      rw [if_pos exits]
      exact ⟨fun _ => ⟨rfl, .inl count⟩, fun _ => .inl rfl⟩

end Fits

section Runs

variable (kemAlgs sigAlgs : List String) (file : String → SpeedFile ρ)

def halfSpeed (half : AlgKind × Nat) : SpeedFile ρ := file (half.1.speedFilename half.2)

/-- The tables written are those of the first files, each labelled with its blocks, up to the end or to the
mismatch error of the next file. -/
inductive Labelled : List (AlgKind × Nat) → List (String × List (SpeedRow ρ)) → Option SpeedError → Prop where
  | done : Labelled [] [] none
  | mismatch (half : AlgKind × Nat) (rest : List (AlgKind × Nat)) : Labelled (half :: rest) [] (some .mismatch)
  | table (half : AlgKind × Nat) {rest : List (AlgKind × Nat)} {tables : List (String × List (SpeedRow ρ))}
      {stopped : Option SpeedError} (tail : Labelled rest tables stopped) :
      Labelled (half :: rest) ((half.1.speedFilename half.2, (halfSpeed file half).labelledRows csv) :: tables) stopped

def SpeedRunsLabelled (numRuns : Nat) : Prop :=
  ∃ progress, ((preSpeedProcessing numRuns fun name => some (file name).lines).map
      (speedProcessing csv numRuns kemAlgs sigAlgs)) = some progress ∧
    Labelled csv file (halves numRuns) progress.written progress.stopped

def ReachedFit (list : List (AlgKind × Nat)) : Prop :=
  ∀ passed half rest, list = passed ++ half :: rest →
    (∀ earlier ∈ passed, ((halfSpeed file earlier).kept csv (earlier.1.algs kemAlgs sigAlgs)).length =
      (earlier.1.algs kemAlgs sigAlgs).length * 3) →
    SpeedFits csv (half.1.algs kemAlgs sigAlgs) (halfSpeed file half)

theorem reachedCons (half : AlgKind × Nat) (rest : List (AlgKind × Nat)) :
    ReachedFit csv kemAlgs sigAlgs file (half :: rest) ↔
      SpeedFits csv (half.1.algs kemAlgs sigAlgs) (halfSpeed file half) ∧
        (((halfSpeed file half).kept csv (half.1.algs kemAlgs sigAlgs)).length = (half.1.algs kemAlgs sigAlgs).length * 3 →
          ReachedFit csv kemAlgs sigAlgs file rest) := by
  constructor
  · intro reached
    refine ⟨reached [] half rest rfl (fun earlier member => nomatch member), fun count passed other later split counts => ?_⟩
    exact reached (half :: passed) other later (by rw [split, List.cons_append]) (List.forall_mem_cons.mpr ⟨count, counts⟩)
  · rintro ⟨first, reached⟩ passed other later split counts
    cases passed with
    | nil =>
      cases split
      exact first
    | cons earlier passed =>
      cases split
      obtain ⟨count, counts⟩ := List.forall_mem_cons.mp counts
      exact reached count passed other later rfl counts

def upSpeedFiles (numRuns : Nat) : List (String × SpeedFrame ρ) :=
  ((halves numRuns).map fun half => half.1.speedFilename half.2).map fun name =>
    (name, ⟨(file name).header.operation, (file name).body⟩)

theorem preSpeedFiles (numRuns : Nat) :
    preSpeedProcessing numRuns (fun name => some (file name).lines) = some (upSpeedFiles file numRuns) := by
  refine (Appending.mapExact _).mpr fun name _ => ?_
  rw [Option.bind_some, preSpeedLines]
  rfl

variable {kemAlgs sigAlgs file}

theorem halfReads {numRuns : Nat} {half : AlgKind × Nat} (member : half ∈ halves numRuns) (algs : List String) :
    ((upSpeedFiles file numRuns).lookup (half.1.speedFilename half.2)).elim (.error .fileNotFound) (speedFile csv algs) =
      speedResult csv algs (halfSpeed file half).lines := by
  have named : half.1.speedFilename half.2 ∈ (halves numRuns).map fun half => half.1.speedFilename half.2 :=
    List.mem_map_of_mem member
  have found : (upSpeedFiles file numRuns).lookup (half.1.speedFilename half.2) =
      some ⟨(halfSpeed file half).header.operation, (halfSpeed file half).body⟩ :=
    Appending.lookupFiled (fun name => SpeedFrame.mk (file name).header.operation (file name).body) named
  rw [found, speedResult, preSpeedLines]
  rfl

theorem halvesLabelled (numRuns : Nat) {list : List (AlgKind × Nat)} (within : ∀ half ∈ list, half ∈ halves numRuns) :
    Labelled csv file list (speedHalves csv kemAlgs sigAlgs (upSpeedFiles file numRuns) list).written
        (speedHalves csv kemAlgs sigAlgs (upSpeedFiles file numRuns) list).stopped ↔
      ReachedFit csv kemAlgs sigAlgs file list := by
  induction list with
  | nil =>
    refine ⟨fun _ passed half rest split => ?_, fun _ => .done⟩
    cases List.append_eq_nil_iff.mp split.symm with
    | intro _ nothing => cases nothing
  | cons half rest ih =>
    obtain ⟨here, within⟩ := List.forall_mem_cons.mp within
    have counts := @speedResultCounts ρ csv (half.1.algs kemAlgs sigAlgs) (halfSpeed file half)
    rw [reachedCons, ← labelledIff, SpeedLabelled, speedHalves]
    dsimp only
    rw [halfReads csv here]
    cases result : speedResult csv (half.1.algs kemAlgs sigAlgs) (halfSpeed file half).lines with
    | error e =>
      constructor
      · intro labelled
        cases labelled
        exact ⟨.inl rfl, fun count => absurd count (counts.2 result)⟩
      · rintro ⟨mismatch | same, -⟩
        · cases mismatch
          exact .mismatch half rest
        · cases same
    | ok rows =>
      have count := counts.1 rows result
      constructor
      · intro labelled
        cases labelled with
        | table _ tail => exact ⟨.inr rfl, fun _ => (ih within).mp tail⟩
      · rintro ⟨mismatch | same, later⟩
        · cases mismatch
        · cases same
          exact .table half ((ih within).mpr (later count))

theorem runsReached {numRuns : Nat} (labelled : SpeedRunsLabelled csv kemAlgs sigAlgs file numRuns) :
    ReachedFit csv kemAlgs sigAlgs file (halves numRuns) := by
  obtain ⟨progress, made, labelled⟩ := labelled
  rw [preSpeedFiles] at made
  cases made
  exact (halvesLabelled csv numRuns fun half member => member).mp labelled

end Runs

theorem speedRunsLabelled (csv : ReadCsv) (numRuns : Nat) (kemAlgs sigAlgs : List String)
    (file : String → SpeedFile ρ) : SpeedRunsLabelled csv kemAlgs sigAlgs file numRuns ↔
      ReachedFit csv kemAlgs sigAlgs file (halves numRuns) := by
  constructor
  · exact runsReached csv
  · intro reached
    have labelled := (halvesLabelled csv numRuns fun half member => member).mpr reached
    refine ⟨_, ?_, labelled⟩
    rw [preSpeedFiles]
    rfl

def singleBlock (_name : String) : SpeedFile Unit where
  preamble := [⟨"Speed test", ()⟩]
  header := ⟨"Operation   ", ()⟩
  separator := ⟨"------------", ()⟩
  blocks := [⟨⟨"ML-KEM-512", ()⟩,
    [⟨"keygen", ()⟩, ⟨"encaps", ()⟩, ⟨"decaps", ()⟩, ⟨"keygen", ()⟩, ⟨"encaps", ()⟩, ⟨"decaps", ()⟩]⟩]
  footer := ⟨"Ended", ()⟩
  preambleFree := by decide
  headerStarts := by decide
  headerNamed := by decide

theorem singleBlockMislabelled : ¬ ∀ numRuns kemAlgs sigAlgs, ∀ file : String → SpeedFile Unit,
    SpeedRunsLabelled lettered kemAlgs sigAlgs file numRuns := by
  intro labelled
  have reached := runsReached lettered (labelled 1 ["ML-KEM-512", "ML-KEM-768"] [] singleBlock)
  have fits := (reached [] (.kem, 1) [(.sig, 1)] rfl fun earlier member => nomatch member).2
  have count : ((halfSpeed singleBlock (.kem, 1)).kept lettered ["ML-KEM-512", "ML-KEM-768"]).length = 6 := by decide
  have order := (fits.resolve_left fun differ => differ count).order
  exact absurd order (by decide)

end Armor.Results
