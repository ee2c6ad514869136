import Armor.Lib.Appending
import Armor.Results.ComputationalAverages

/-! The handshake results of one test type: `pqc_based_processing` separates the base results of
each run by signature, and `TLSAverager.gen_pqc_avgs` averages them over the runs. -/
namespace Armor.Results
open Text (contains)

inductive TlsColumn where
  | connectionsInUserTime
  | userTime
  | connectionsPerUserSecond
  | connectionsInRealTime
  | realTime
  deriving DecidableEq, Repr

def tlsColumns : List TlsColumn :=
  [.connectionsInUserTime, .userTime, .connectionsPerUserSecond, .connectionsInRealTime, .realTime]

structure BaseRow where
  signingAlgorithm : String
  kemAlgorithm : String
  reusedSessionId : String
  cells : TlsColumn → Rat

structure TlsAvgRow where
  signingAlgorithm : String
  kemAlgorithm : String
  reusedSessionId : String
  metrics : List (Option Rat)
  deriving DecidableEq

/-- `read_csv`, `re.compile` with `search` as the predicate it gives, and whether a file can be made in the
directory of a signature. -/
structure Host where
  csv : ReadCsv
  compile : String → Option (String → Bool)
  creates : String → String → Bool

def runFilename (sig : String) (run : Nat) : String := "tls_handshake_" ++ sig ++ "_run_" ++ run.repr ++ ".csv"

def avgFilename (sig : String) : String := "tls_handshake_" ++ sig ++ "_avg.csv"

variable (host : Host)

def currentSigFile (run : Nat) (base : List BaseRow) (sig : String) : Option (String × List BaseRow) :=
  (host.compile sig).bind fun search => (host.csv.select BaseRow.signingAlgorithm search base).bind fun currentSig =>
    if host.creates sig (runFilename sig run) then some (sig, currentSig) else none

def pqcBasedProcessing (run : Nat) (sigAlgs : List String) (base : List BaseRow) : Option (List (String × List BaseRow)) :=
  sigAlgs.mapM (currentSigFile host run base)

def runFile (sigAlgs : List String) (base : Nat → List BaseRow) (run : Nat) (sig : String) : Option (List BaseRow) :=
  (pqcBasedProcessing host run sigAlgs (base run)).bind fun files => files.lookup sig

def kemAverages (numRuns : Nat) (file : Nat → Option (List BaseRow)) (sig kem : String) : Option (List TlsAvgRow) :=
  -- without a run the row variables are never set
  if numRuns = 0 then none
  else
    ((runs numRuns).mapM fun run => (file run).bind (host.csv.select BaseRow.kemAlgorithm (contains · kem))).map fun selected =>
      let first := selected.flatMap fun rows => rows.take 1
      let reused := selected.flatMap fun rows => (rows.drop 1).take 1
      [⟨sig, kem, "", tlsColumns.map fun column => mean (first.map fun row => row.cells column)⟩,
        ⟨sig, kem, "*", tlsColumns.map fun column => mean (reused.map fun row => row.cells column)⟩]

def genPqcAvgs (sigAlgs kemAlgs : List String) (numRuns : Nat) (file : Nat → String → Option (List BaseRow)) :
    Option (List (String × List TlsAvgRow)) :=
  sigAlgs.mapM fun sig => (kemAlgs.mapM fun kem => kemAverages host numRuns (fun run => file run sig) sig kem).bind fun rows =>
    if host.creates sig (avgFilename sig) then some (sig, rows.flatten) else none

def pairOf (cells : String → String → Bool → TlsColumn → Rat) (sig kem : String) : List BaseRow :=
  [⟨sig, kem, "", cells sig kem false⟩, ⟨sig, kem, "*", cells sig kem true⟩]

def baseTable (sigAlgs kemAlgs : List String) (cells : String → String → Bool → TlsColumn → Rat) : List BaseRow :=
  sigAlgs.flatMap fun sig => kemAlgs.flatMap fun kem => pairOf cells sig kem

def ownTlsMean (numRuns : Nat) (cells : Nat → String → String → Bool → TlsColumn → Rat) (sig kem : String) (reused : Bool)
    (column : TlsColumn) : Option Rat :=
  mean ((runs numRuns).map fun run => cells run sig kem reused column)

def ownTlsRows (numRuns : Nat) (cells : Nat → String → String → Bool → TlsColumn → Rat) (sig kem : String) : List TlsAvgRow :=
  [⟨sig, kem, "", tlsColumns.map (ownTlsMean numRuns cells sig kem false)⟩,
    ⟨sig, kem, "*", tlsColumns.map (ownTlsMean numRuns cells sig kem true)⟩]

def FilesExact (sigAlgs kemAlgs : List String) (numRuns : Nat)
    (cells : Nat → String → String → Bool → TlsColumn → Rat) : Prop :=
  ∀ run ∈ runs numRuns, pqcBasedProcessing host run sigAlgs (baseTable sigAlgs kemAlgs (cells run)) = some (sigAlgs.map fun sig =>
    (sig, (baseTable sigAlgs kemAlgs (cells run)).filter fun row => row.signingAlgorithm = sig))

def AveragesExact (sigAlgs kemAlgs : List String) (numRuns : Nat)
    (cells : Nat → String → String → Bool → TlsColumn → Rat) : Prop :=
  genPqcAvgs host sigAlgs kemAlgs numRuns (runFile host sigAlgs fun run => baseTable sigAlgs kemAlgs (cells run)) =
    some (sigAlgs.map fun sig => (sig, kemAlgs.flatMap fun kem => ownTlsRows numRuns cells sig kem))

def SigsFound (compile : String → Option (String → Bool)) (sigAlgs kemAlgs : List String) : Prop :=
  ∀ sig ∈ sigAlgs, ∃ search, compile sig = some search ∧
    (kemAlgs ≠ [] → ∀ other ∈ sigAlgs, search other = true ↔ other = sig)

def KemsFirst (kemAlgs : List String) : Prop := ∀ kem ∈ kemAlgs, (kemAlgs.find? fun other => contains other kem) = some kem

def sigColumn (sigAlgs kemAlgs : List String) : List String :=
  sigAlgs.flatMap fun sig => kemAlgs.flatMap fun _ => [sig, sig]

def kemColumn (kemAlgs : List String) : List String := kemAlgs.flatMap fun kem => [kem, kem]

structure FilesFit (sigAlgs kemAlgs : List String) (numRuns : Nat) : Prop where
  found : SigsFound host.compile sigAlgs kemAlgs
  text : host.csv.isText (sigColumn sigAlgs kemAlgs) = true
  created : ∀ sig ∈ sigAlgs, ∀ run ∈ runs numRuns, host.creates sig (runFilename sig run) = true

structure AveragesFit (sigAlgs kemAlgs : List String) : Prop where
  first : sigAlgs ≠ [] → KemsFirst kemAlgs
  text : sigAlgs ≠ [] → host.csv.isText (kemColumn kemAlgs) = true
  created : ∀ sig ∈ sigAlgs, host.creates sig (avgFilename sig) = true

variable {host} {sigAlgs kemAlgs : List String} {cells : Nat → String → String → Bool → TlsColumn → Rat} {numRuns : Nat}

theorem baseMember {table : String → String → Bool → TlsColumn → Rat} {row : BaseRow}
    (member : row ∈ baseTable sigAlgs kemAlgs table) : row.signingAlgorithm ∈ sigAlgs := by
  obtain ⟨sig, sigIn, member⟩ := List.mem_flatMap.mp member
  obtain ⟨kem, -, member⟩ := List.mem_flatMap.mp member
  cases List.mem_cons.mp member with
  | inl same => exact same ▸ sigIn
  | inr member => exact List.mem_singleton.mp member ▸ sigIn

theorem baseSignatures (table : String → String → Bool → TlsColumn → Rat) :
    (baseTable sigAlgs kemAlgs table).map BaseRow.signingAlgorithm = sigColumn sigAlgs kemAlgs := by
  simp only [baseTable, sigColumn, pairOf, List.map_flatMap, List.map_cons, List.map_nil]

theorem pairKems (table : String → String → Bool → TlsColumn → Rat) (sig : String) :
    (kemAlgs.flatMap fun kem => pairOf table sig kem).map BaseRow.kemAlgorithm = kemColumn kemAlgs := by
  simp only [kemColumn, pairOf, List.map_flatMap, List.map_cons, List.map_nil]

theorem currentSigFileIff {run : Nat} {base rows : List BaseRow} {sig : String} :
    currentSigFile host run base sig = some (sig, rows) ↔
      ∃ search, host.compile sig = some search ∧ (base.filter fun row => search row.signingAlgorithm) = rows ∧
        host.csv.isText (base.map BaseRow.signingAlgorithm) = true ∧ host.creates sig (runFilename sig run) = true := by
  unfold currentSigFile
  constructor
  · intro done
    obtain ⟨search, compiled, done⟩ := Option.bind_eq_some_iff.mp done
    obtain ⟨selected, found, done⟩ := Option.bind_eq_some_iff.mp done
    have text := ReadCsv.selectSome found
    rw [ReadCsv.selectText text] at found
    cases found
    split at done
    · next made =>
      cases done
      exact ⟨search, compiled, rfl, text, made⟩
    · cases done
  · rintro ⟨search, compiled, rfl, text, made⟩
    rw [compiled, Option.bind_some, ReadCsv.selectText text, Option.bind_some, if_pos made]

theorem filesFit (positive : 0 < numRuns) (exact_ : FilesExact host sigAlgs kemAlgs numRuns cells) :
    FilesFit host sigAlgs kemAlgs numRuns := by
  have each : ∀ run ∈ runs numRuns, ∀ sig ∈ sigAlgs, _ := fun run listed sig sigIn =>
    currentSigFileIff.mp ((Appending.mapExact sigAlgs).mp (exact_ run listed) sig sigIn)
  have one : 1 ∈ runs numRuns := runsMember.mpr ⟨Nat.le_refl _, positive⟩
  refine ⟨fun sig sigIn => ?_, ?_, fun sig sigIn run listed => ?_⟩
  · obtain ⟨search, compiled, same, -⟩ := each 1 one sig sigIn
    refine ⟨search, compiled, fun some_ other otherIn => ?_⟩
    obtain ⟨kem, kemIn⟩ := List.exists_mem_of_ne_nil kemAlgs some_
    obtain ⟨row, rowIn, rowSig⟩ : ∃ row ∈ baseTable sigAlgs kemAlgs (cells 1), row.signingAlgorithm = other :=
      ⟨⟨other, kem, "", cells 1 other kem false⟩,
        List.mem_flatMap.mpr ⟨other, otherIn, List.mem_flatMap.mpr ⟨kem, kemIn, List.mem_cons_self⟩⟩, rfl⟩
    have both := congrArg (row ∈ ·) same
    simp only [List.mem_filter, rowIn, rowSig, true_and, decide_eq_true_eq, eq_iff_iff] at both
    exact both
  · by_cases some_ : sigAlgs = []
    · subst some_
      rfl
    · obtain ⟨sig, sigIn⟩ := List.exists_mem_of_ne_nil sigAlgs some_
      obtain ⟨-, -, -, text, -⟩ := each 1 one sig sigIn
      rwa [baseSignatures] at text
  · obtain ⟨-, -, -, -, made⟩ := each run listed sig sigIn
    exact made

theorem filesExactOf (fit : FilesFit host sigAlgs kemAlgs numRuns) : FilesExact host sigAlgs kemAlgs numRuns cells := by
  intro run listed
  refine (Appending.mapExact sigAlgs).mpr fun sig sigIn => ?_
  obtain ⟨search, compiled, exact_⟩ := fit.found sig sigIn
  refine currentSigFileIff.mpr ⟨search, compiled, ?_, ?_, fit.created sig sigIn run listed⟩
  · refine List.filter_congr fun row member => ?_
    by_cases some_ : kemAlgs = []
    · subst some_
      obtain ⟨sig', -, none_⟩ := List.mem_flatMap.mp member
      cases none_
    · have here := exact_ some_ row.signingAlgorithm (baseMember member)
      rw [Bool.eq_iff_iff, here, decide_eq_true_eq]
  · rw [baseSignatures]
    exact fit.text

theorem flatMapOne {β : Type} (entries : String → List β) {names : List String} (distinct : names.Nodup) {name : String}
    (member : name ∈ names) : (names.flatMap fun other => if other = name then entries name else []) = entries name := by
  induction names with
  | nil => cases member
  | cons first names ih =>
    obtain ⟨fresh, distinct⟩ := List.nodup_cons.mp distinct
    rw [List.flatMap_cons]
    by_cases here : first = name
    · subst here
      have none_ : (names.flatMap fun other => if other = first then entries first else []) = [] := by
        refine List.flatMap_eq_nil_iff.mpr fun other otherIn => if_neg fun same => ?_
        exact fresh (same ▸ otherIn)
      rw [if_pos rfl, none_, List.append_nil]
    · rw [if_neg here, List.nil_append]
      exact ih distinct ((List.mem_cons.mp member).resolve_left fun same => here same.symm)

theorem ownRowsOf (distinct : sigAlgs.Nodup) {sig : String} (sigIn : sig ∈ sigAlgs)
    (table : String → String → Bool → TlsColumn → Rat) :
    ((baseTable sigAlgs kemAlgs table).filter fun row => row.signingAlgorithm = sig) =
      kemAlgs.flatMap fun kem => pairOf table sig kem := by
  have each : ∀ other, ((kemAlgs.flatMap fun kem => pairOf table other kem).filter fun row => row.signingAlgorithm = sig) =
      if other = sig then kemAlgs.flatMap fun kem => pairOf table sig kem else [] := by
    intro other
    split
    · next same =>
      subst same
      refine List.filter_eq_self.mpr fun row member => ?_
      obtain ⟨kem, -, member⟩ := List.mem_flatMap.mp member
      cases List.mem_cons.mp member with
      | inl same => exact same ▸ decide_eq_true rfl
      | inr member => exact List.mem_singleton.mp member ▸ decide_eq_true rfl
    · next differ =>
      refine List.filter_eq_nil_iff.mpr fun row member => ?_
      obtain ⟨kem, -, member⟩ := List.mem_flatMap.mp member
      rw [decide_eq_true_eq]
      cases List.mem_cons.mp member with
      | inl same => exact same ▸ differ
      | inr member => exact List.mem_singleton.mp member ▸ differ
  rw [baseTable, List.filter_flatMap]
  simp only [each]
  exact flatMapOne (fun sig => kemAlgs.flatMap fun kem => pairOf table sig kem) distinct sigIn

theorem selectedRows (sig kem : String) (table : String → String → Bool → TlsColumn → Rat) :
    ((kemAlgs.flatMap fun kem => pairOf table sig kem).filter fun row => contains row.kemAlgorithm kem) =
      (kemAlgs.filter fun other => contains other kem).flatMap fun other => pairOf table sig other := by
  induction kemAlgs with
  | nil => rfl
  | cons first rest ih =>
    rw [List.flatMap_cons, List.filter_append, ih, List.filter_cons]
    cases found : contains first kem with
    | true =>
      have both : (pairOf table sig first).filter (fun row => contains row.kemAlgorithm kem) = pairOf table sig first := by
        simp only [pairOf, List.filter_cons, found, if_true, List.filter_nil]
      rw [both, if_pos rfl, List.flatMap_cons]
    | false =>
      have none_ : (pairOf table sig first).filter (fun row => contains row.kemAlgorithm kem) = [] := by
        simp only [pairOf, List.filter_cons, found, Bool.false_eq_true, if_false, List.filter_nil]
      rw [none_, if_neg Bool.false_ne_true, List.nil_append]

theorem selectedFirst {sig kem read : String} (table : String → String → Bool → TlsColumn → Rat)
    (first : (kemAlgs.find? fun other => contains other kem) = some read) : ∃ later,
      ((kemAlgs.flatMap fun kem => pairOf table sig kem).filter fun row => contains row.kemAlgorithm kem) =
        pairOf table sig read ++ later := by
  rw [selectedRows]
  rw [← List.head?_filter] at first
  obtain ⟨more, same⟩ := List.head?_eq_some_iff.mp first
  exact ⟨more.flatMap fun other => pairOf table sig other, by rw [same, List.flatMap_cons]⟩

theorem kemAveragesRead (positive : 0 < numRuns) {sig kem read : String}
    (first : (kemAlgs.find? fun other => contains other kem) = some read) {file : Nat → Option (List BaseRow)}
    (files : ∀ run ∈ runs numRuns, file run = some (kemAlgs.flatMap fun kem => pairOf (cells run) sig kem))
    (text : host.csv.isText (kemColumn kemAlgs) = true) :
    kemAverages host numRuns file sig kem =
      some [⟨sig, kem, "", tlsColumns.map (ownTlsMean numRuns cells sig read false)⟩,
        ⟨sig, kem, "*", tlsColumns.map (ownTlsMean numRuns cells sig read true)⟩] := by
  have tables : ((runs numRuns).mapM fun run => (file run).bind (host.csv.select BaseRow.kemAlgorithm (contains · kem))) =
      some ((runs numRuns).map fun run => (kemAlgs.flatMap fun kem => pairOf (cells run) sig kem).filter
        fun row => contains row.kemAlgorithm kem) := by
    refine (Appending.mapExact (runs numRuns)).mpr fun run listed => ?_
    rw [files run listed, Option.bind_some]
    refine ReadCsv.selectText ?_
    rw [pairKems]
    exact text
  have firstRow : ∀ run, (((kemAlgs.flatMap fun kem => pairOf (cells run) sig kem).filter fun row =>
      contains row.kemAlgorithm kem).take 1) = [⟨sig, read, "", cells run sig read false⟩] := by
    intro run
    obtain ⟨later, same⟩ := @selectedFirst kemAlgs sig kem read (cells run) first
    rw [same]
    rfl
  have secondRow : ∀ run, ((((kemAlgs.flatMap fun kem => pairOf (cells run) sig kem).filter fun row =>
      contains row.kemAlgorithm kem).drop 1).take 1) = [⟨sig, read, "*", cells run sig read true⟩] := by
    intro run
    obtain ⟨later, same⟩ := @selectedFirst kemAlgs sig kem read (cells run) first
    rw [same]
    rfl
  rw [kemAverages, if_neg (Nat.ne_of_gt positive), tables, Option.map_some]
  simp only [List.flatMap_map, firstRow, secondRow, ← List.map_eq_flatMap, List.map_map]
  rfl

theorem kemAveragesText (positive : 0 < numRuns) {sig kem : String} {file : Nat → Option (List BaseRow)}
    (files : ∀ run ∈ runs numRuns, file run = some (kemAlgs.flatMap fun kem => pairOf (cells run) sig kem)) {rows : List TlsAvgRow}
    (done : kemAverages host numRuns file sig kem = some rows) : host.csv.isText (kemColumn kemAlgs) = true := by
  have one : 1 ∈ runs numRuns := runsMember.mpr ⟨Nat.le_refl _, positive⟩
  rw [kemAverages, if_neg (Nat.ne_of_gt positive)] at done
  obtain ⟨selected, done, -⟩ := Option.map_eq_some_iff.mp done
  obtain ⟨own, given⟩ := Appending.mapGiven done one
  rw [files 1 one, Option.bind_some] at given
  have text := ReadCsv.selectSome given
  rwa [pairKems] at text

def readFor (kemAlgs : List String) (kem : String) : String := (kemAlgs.find? fun other => contains other kem).getD kem

theorem readForSome {kem : String} (kemIn : kem ∈ kemAlgs) :
    (kemAlgs.find? fun other => contains other kem) = some (readFor kemAlgs kem) := by
  unfold readFor
  cases first : kemAlgs.find? fun other => contains other kem with
  | none => exact absurd (Text.containsRefl kem) (List.find?_eq_none.mp first kem kemIn)
  | some read => rfl

def averageRowOf (numRuns : Nat) (cells : Nat → String → String → Bool → TlsColumn → Rat) (sig read kem : String)
    (reused : Bool) : TlsAvgRow :=
  ⟨sig, kem, if reused then "*" else "", tlsColumns.map (ownTlsMean numRuns cells sig read reused)⟩

theorem runFileRead (distinct : sigAlgs.Nodup) (fit : FilesFit host sigAlgs kemAlgs numRuns) {sig : String}
    (sigIn : sig ∈ sigAlgs) {run : Nat} (listed : run ∈ runs numRuns) :
    runFile host sigAlgs (fun run => baseTable sigAlgs kemAlgs (cells run)) run sig =
      some (kemAlgs.flatMap fun kem => pairOf (cells run) sig kem) := by
  rw [runFile, filesExactOf fit run listed, Option.bind_some, Appending.lookupFiled _ sigIn, ownRowsOf distinct sigIn]

theorem averagesRead (distinct : sigAlgs.Nodup) (positive : 0 < numRuns) (fit : FilesFit host sigAlgs kemAlgs numRuns)
    (text : sigAlgs ≠ [] → host.csv.isText (kemColumn kemAlgs) = true)
    (created : ∀ sig ∈ sigAlgs, host.creates sig (avgFilename sig) = true) :
    genPqcAvgs host sigAlgs kemAlgs numRuns (runFile host sigAlgs fun run => baseTable sigAlgs kemAlgs (cells run)) =
      some (sigAlgs.map fun sig => (sig, kemAlgs.flatMap fun kem =>
        [false, true].map (averageRowOf numRuns cells sig (readFor kemAlgs kem) kem))) := by
  unfold genPqcAvgs
  rw [Appending.mapExact]
  intro sig sigIn
  have rows : (kemAlgs.mapM fun kem => kemAverages host numRuns (fun run =>
      runFile host sigAlgs (fun run => baseTable sigAlgs kemAlgs (cells run)) run sig) sig kem) =
        some (kemAlgs.map fun kem => [false, true].map (averageRowOf numRuns cells sig (readFor kemAlgs kem) kem)) := by
    rw [Appending.mapExact]
    intro kem kemIn
    exact kemAveragesRead positive (readForSome kemIn) (fun run listed => runFileRead distinct fit sigIn listed)
      (text (List.ne_nil_of_mem sigIn))
  rw [rows, Option.bind_some, if_pos (created sig sigIn), List.flatMap_def]

theorem averagesExactOf (distinct : sigAlgs.Nodup) (positive : 0 < numRuns) (fit : FilesFit host sigAlgs kemAlgs numRuns)
    (averages : AveragesFit host sigAlgs kemAlgs) : AveragesExact host sigAlgs kemAlgs numRuns cells := by
  rw [AveragesExact, averagesRead distinct positive fit averages.text averages.created]
  congr 1
  refine List.map_congr_left fun sig sigIn => ?_
  congr 1
  refine List.flatMap_congr fun kem kemIn => ?_
  rw [readFor, averages.first (List.ne_nil_of_mem sigIn) kem kemIn]
  rfl

theorem averagesSome (distinct : sigAlgs.Nodup) (positive : 0 < numRuns) (fit : FilesFit host sigAlgs kemAlgs numRuns)
    (exact_ : AveragesExact host sigAlgs kemAlgs numRuns cells) :
    (sigAlgs ≠ [] → host.csv.isText (kemColumn kemAlgs) = true) ∧
      ∀ sig ∈ sigAlgs, host.creates sig (avgFilename sig) = true := by
  have each := (Appending.mapExact sigAlgs).mp exact_
  refine ⟨fun some_ => ?_, fun sig sigIn => ?_⟩
  · obtain ⟨sig, sigIn⟩ := List.exists_mem_of_ne_nil sigAlgs some_
    obtain ⟨rows, done, -⟩ := Option.bind_eq_some_iff.mp (each sig sigIn)
    by_cases none_ : kemAlgs = []
    · subst none_
      rfl
    · obtain ⟨kem, kemIn⟩ := List.exists_mem_of_ne_nil kemAlgs none_
      obtain ⟨own, given⟩ := Appending.mapGiven done kemIn
      exact kemAveragesText positive (fun run listed => runFileRead distinct fit sigIn listed) given
  · obtain ⟨rows, -, made⟩ := Option.bind_eq_some_iff.mp (each sig sigIn)
    split at made
    · next here => exact here
    · cases made

def markedKem (kem : String) (_run : Nat) (_sig kem' : String) (_reused : Bool) (_column : TlsColumn) : Rat :=
  if kem' = kem then 1 else 0

theorem kemsFirstOf (distinct : sigAlgs.Nodup) (positive : 0 < numRuns) (fit : FilesFit host sigAlgs kemAlgs numRuns)
    (exact_ : ∀ cells, AveragesExact host sigAlgs kemAlgs numRuns cells) (some_ : sigAlgs ≠ []) : KemsFirst kemAlgs := by
  intro kem kemIn
  rw [readForSome kemIn]
  by_contra differ
  have other : readFor kemAlgs kem ≠ kem := fun same => differ (congrArg some same)
  obtain ⟨sig, sigIn⟩ := List.exists_mem_of_ne_nil sigAlgs some_
  have same := exact_ (markedKem kem)
  have done := averagesSome distinct positive fit same
  rw [AveragesExact, averagesRead distinct positive fit done.1 done.2] at same
  have files := List.map_inj_left.mp (Option.some.inj same) sig sigIn
  have rows := @sameEach TlsAvgRow Bool kemAlgs [false, true]
    (fun kem' => averageRowOf numRuns (markedKem kem) sig (readFor kemAlgs kem') kem')
    (fun kem' => averageRowOf numRuns (markedKem kem) sig kem' kem')
    (Prod.mk.inj files).2 kem false kemIn List.mem_cons_self
  have metrics := (TlsAvgRow.mk.inj rows).2.2.2
  have means := List.map_inj_left.mp metrics .userTime (by decide)
  have first : 1 ∈ runs numRuns := runsMember.mpr ⟨Nat.le_refl _, positive⟩
  have readZero : ownTlsMean numRuns (markedKem kem) sig (readFor kemAlgs kem) false .userTime = some 0 := by
    refine Mean.ofZeros (List.ne_nil_of_mem (List.mem_map_of_mem first)) fun v member => ?_
    obtain ⟨run, -, rfl⟩ := List.mem_map.mp member
    exact if_neg other
  have one : ∀ run, markedKem kem run sig kem false .userTime = 1 := fun run => if_pos rfl
  have ownOne : ownTlsMean numRuns (markedKem kem) sig kem false .userTime ≠ some 0 := by
    refine Mean.ofPositive (fun v member => ?_) (List.mem_map_of_mem first) ?_
    · obtain ⟨run, -, rfl⟩ := List.mem_map.mp member
      rw [one]
      exact zero_le_one
    · rw [one]
      exact one_pos
  exact ownOne (means.symm.trans readZero)

theorem handshakeAverages (host : Host) {sigAlgs : List String} (distinct : sigAlgs.Nodup) (kemAlgs : List String)
    {numRuns : Nat} (positive : 0 < numRuns) :
    (∀ cells, FilesExact host sigAlgs kemAlgs numRuns cells ∧ AveragesExact host sigAlgs kemAlgs numRuns cells) ↔
      FilesFit host sigAlgs kemAlgs numRuns ∧ AveragesFit host sigAlgs kemAlgs := by
  constructor
  · intro exact_
    have fit := filesFit positive (exact_ fun _ _ _ _ _ => 0).1
    have done := averagesSome distinct positive fit (exact_ fun _ _ _ _ _ => 0).2
    exact ⟨fit, kemsFirstOf distinct positive fit fun cells => (exact_ cells).2, done.1, done.2⟩
  · rintro ⟨fit, averages⟩ cells
    exact ⟨filesExactOf fit, averagesExactOf distinct positive fit averages⟩

def plainHost : Host :=
  ⟨lettered, fun pattern => some fun s => contains s pattern, fun _ name => !name.toList.contains '/'⟩

theorem handshakeAveragesTwo :
    (∀ cells, FilesExact plainHost ["mldsa44", "falcon512"] ["mlkem512", "bikel1"] 2 cells ∧
      AveragesExact plainHost ["mldsa44", "falcon512"] ["mlkem512", "bikel1"] 2 cells) ↔
      FilesFit plainHost ["mldsa44", "falcon512"] ["mlkem512", "bikel1"] 2 ∧
        AveragesFit plainHost ["mldsa44", "falcon512"] ["mlkem512", "bikel1"] :=
  handshakeAverages plainHost (by decide) ["mlkem512", "bikel1"] (by decide)

theorem snovaMixed : ¬ ∀ sigAlgs kemAlgs : List String, sigAlgs.Nodup → kemAlgs.Nodup → ∀ cells,
    FilesExact plainHost sigAlgs kemAlgs 1 cells := by
  intro exact_
  have fit := filesFit (by decide) (exact_ ["snova2454", "snova2454esk"] ["mlkem512"] (by decide) (by decide)
    fun _ _ _ _ _ => 0)
  obtain ⟨search, compiled, own⟩ := fit.found "snova2454" List.mem_cons_self
  cases compiled
  have mixed : contains "snova2454esk" "snova2454" = true := by decide
  exact absurd ((own (List.cons_ne_nil _ _) "snova2454esk" (by decide)).mp mixed) (by decide)

end Armor.Results
