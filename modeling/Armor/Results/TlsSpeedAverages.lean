import Armor.Results.ClassicAverages
import Armor.Results.MemoryResults

/-! `TLSAverager.get_speed_algs` and `gen_speed_avgs`: the averages of the TLS speed tables of both test
types, KEMs and signatures, over the runs. -/
namespace Armor.Results
open Text (contains)

structure TlsSpeedRow where
  algorithm : String
  cells : String → Option Rat

structure TlsSpeedAvgRow where
  algorithm : String
  metrics : List (Option Rat)
  deriving DecidableEq

abbrev SpeedDir := String → Option (List TlsSpeedRow)

def AlgKind.typeName : AlgKind → String
  | .kem => "kem"
  | .sig => "sig"

def AlgKind.speedHeaders : AlgKind → List String
  | .kem => ["Algorithm", "Keygen", "encaps", "decaps", "Keygen/s", "Encaps/s", "Decaps/s"]
  | .sig => ["Algorithm", "Keygen", "Signs", "Verify", "Keygen/s", "sign/s", "verify/s"]

def TypePrefix.speedPrefix : TypePrefix → String
  | .pqc => "tls_speed"
  | .hybrid => "tls_speed_hybrid"

def tlsSpeedFile (test : TypePrefix) (kind : AlgKind) (run : Nat) : String :=
  test.speedPrefix ++ "_" ++ kind.typeName ++ "_" ++ run.repr ++ ".csv"

def tlsSpeedAvgFile (test : TypePrefix) (kind : AlgKind) : String :=
  test.speedPrefix ++ "_" ++ kind.typeName ++ "_avg.csv"

def getSpeedAlgs (tempFilename : String) (dir : SpeedDir) : Option (List String) :=
  (dir tempFilename).map fun rows => rows.map TlsSpeedRow.algorithm

variable (csv : ReadCsv)

/-- The rows of a run whose name contains the algorithm's, which the first run searches twice. -/
def currentRunDf (alg : String) (run : Nat) (rows : List TlsSpeedRow) : Option (Nat × List TlsSpeedRow) :=
  (csv.select TlsSpeedRow.algorithm (contains · alg) rows).bind fun current =>
    if run = 1 then
      (csv.strContains (rows.map TlsSpeedRow.algorithm) TlsSpeedRow.algorithm (contains · alg) current).map fun combined =>
        (run, combined)
    else some (run, current)

def combinedSpeed (parts : List (Nat × List TlsSpeedRow)) : List TlsSpeedRow :=
  parts.foldl (fun combined part => if part.1 = 1 then part.2 else combined ++ part.2.take 1) []

def metricHeaders (headers : List String) : List String := headers.filter fun column => !contains (headers.headD "") column

def speedAvgRow (headers : List String) (alg : String) (combined : List TlsSpeedRow) : TlsSpeedAvgRow :=
  ⟨alg, (metricHeaders headers).map fun column => mean (combined.filterMap fun row => row.cells column)⟩

def speedAvgs (numRuns : Nat) (dir : SpeedDir) (test : TypePrefix) (kind : AlgKind) : Option (List TlsSpeedAvgRow) :=
  (getSpeedAlgs (tlsSpeedFile test kind 1) dir).bind fun algs => algs.mapM fun alg =>
    ((runs numRuns).mapM fun run => (dir (tlsSpeedFile test kind run)).bind (currentRunDf csv alg run)).map fun parts =>
      speedAvgRow kind.speedHeaders alg (combinedSpeed parts)

def speedFiles : List (TypePrefix × AlgKind) := [(.pqc, .kem), (.pqc, .sig), (.hybrid, .kem), (.hybrid, .sig)]

def genSpeedAvgs (numRuns : Nat) (dir : SpeedDir) : Option (List (String × List TlsSpeedAvgRow)) :=
  speedFiles.mapM fun file => (speedAvgs csv numRuns dir file.1 file.2).map fun rows => (tlsSpeedAvgFile file.1 file.2, rows)

def speedTable (dir : SpeedDir) (test : TypePrefix) (kind : AlgKind) (run : Nat) : List TlsSpeedRow :=
  (dir (tlsSpeedFile test kind run)).getD []

def ownValue (rows : List TlsSpeedRow) (alg column : String) : Option Rat :=
  (rows.find? fun row => row.algorithm = alg).bind fun row => row.cells column

def ownSpeedAvgs (numRuns : Nat) (table : Nat → List TlsSpeedRow) (metrics : List String) : List TlsSpeedAvgRow :=
  ((table 1).map TlsSpeedRow.algorithm).map fun alg =>
    ⟨alg, metrics.map fun column => mean ((runs numRuns).filterMap fun run => ownValue (table run) alg column)⟩

def SpeedAvgsExact (numRuns : Nat) (dir : SpeedDir) : Prop :=
  genSpeedAvgs csv numRuns dir = some (speedFiles.map fun file =>
    (tlsSpeedAvgFile file.1 file.2, ownSpeedAvgs numRuns (speedTable dir file.1 file.2) file.2.speedHeaders.tail))

def OneRowPerAlg (names : TypePrefix → AlgKind → List String) (numRuns : Nat) (dir : SpeedDir) : Prop :=
  ∀ test kind, ∀ run ∈ runs (max 1 numRuns), ∃ rows, dir (tlsSpeedFile test kind run) = some rows ∧
    (rows.map TlsSpeedRow.algorithm).Perm (names test kind)

def TextColumn (names : List String) : Prop := ∀ column : List String, column.Perm names → csv.isText column = true

theorem firstRead (numRuns : Nat) : 1 ∈ runs (max 1 numRuns) := runsMember.mpr ⟨Nat.le_refl _, Nat.le_max_left _ _⟩

theorem runRead {numRuns run : Nat} (member : run ∈ runs numRuns) : run ∈ runs (max 1 numRuns) :=
  runsMember.mpr ⟨(runsMember.mp member).1, Nat.le_trans (runsMember.mp member).2 (Nat.le_max_right _ _)⟩

theorem metricHeadersTail (kind : AlgKind) : metricHeaders kind.speedHeaders = kind.speedHeaders.tail := by
  cases kind <;> decide +kernel

theorem speedFilesAll (test : TypePrefix) (kind : AlgKind) : (test, kind) ∈ speedFiles := by
  cases test <;> cases kind <;> decide

section Read

variable {csv : ReadCsv} {alg : String} {run : Nat} {rows : List TlsSpeedRow}

theorem currentRunText (text : csv.isText (rows.map TlsSpeedRow.algorithm) = true) :
    currentRunDf csv alg run rows = some (run, rows.filter fun row => contains row.algorithm alg) := by
  rw [currentRunDf, ReadCsv.selectText text, Option.bind_some]
  split
  · rw [ReadCsv.strContainsText text (List.filter_subset_self _), Option.map_some, List.filter_filter]
    simp only [Bool.and_self]
  · rfl

theorem currentRunSome {part : Nat × List TlsSpeedRow} (done : currentRunDf csv alg run rows = some part) :
    csv.isText (rows.map TlsSpeedRow.algorithm) = true := by
  obtain ⟨current, done, -⟩ := Option.bind_eq_some_iff.mp done
  exact ReadCsv.selectSome done

end Read

section Combined

variable (alg : String) (table : Nat → List TlsSpeedRow)

def selectedSpeed (run : Nat) : List TlsSpeedRow := (table run).filter fun row => contains row.algorithm alg

theorem combinedLater (later : List Nat) (others : ∀ run ∈ later, run ≠ 1) (combined : List TlsSpeedRow) :
    (later.map fun run => (run, selectedSpeed alg table run)).foldl
      (fun combined part => if part.1 = 1 then part.2 else combined ++ part.2.take 1) combined =
      combined ++ later.flatMap fun run => (selectedSpeed alg table run).take 1 := by
  induction later generalizing combined with
  | nil => rw [List.map_nil, List.foldl_nil, List.flatMap_nil, List.append_nil]
  | cons run later ih =>
    obtain ⟨other, others⟩ := List.forall_mem_cons.mp others
    rw [List.map_cons, List.foldl_cons, List.flatMap_cons, ih others]
    dsimp only
    rw [if_neg other, List.append_assoc]

theorem combinedRead (numRuns : Nat) : combinedSpeed ((runs (numRuns + 1)).map fun run => (run, selectedSpeed alg table run)) =
    selectedSpeed alg table 1 ++ (List.range' 2 numRuns).flatMap fun run => (selectedSpeed alg table run).take 1 := by
  have others : ∀ run ∈ List.range' 2 numRuns, run ≠ 1 := by
    intro run member
    have above := (List.mem_range'_1.mp member).1
    omega
  rw [combinedSpeed, runs, List.range'_succ, List.map_cons, List.foldl_cons, combinedLater alg table _ others]
  dsimp only
  rw [if_pos rfl]

end Combined

section Own

variable {names : List String} {rows : List TlsSpeedRow} {alg : String}

theorem selectedOwn (distinct : names.Nodup) (separate : Separate names) (one : (rows.map TlsSpeedRow.algorithm).Perm names)
    (algIn : alg ∈ names) : ∃ row, rows.filter (fun row => contains row.algorithm alg) = [row] ∧
      ∀ column, ownValue rows alg column = row.cells column := by
  have own : rows.filter (fun row => contains row.algorithm alg) = rows.filter fun row => row.algorithm = alg := by
    refine List.filter_congr fun row member => ?_
    have listed : row.algorithm ∈ names := one.mem_iff.mp (List.mem_map_of_mem member)
    rw [Bool.eq_iff_iff, separate.found algIn listed, decide_eq_true_eq]
  have single : (rows.filter fun row => row.algorithm = alg).length = 1 := by
    have count : (rows.map TlsSpeedRow.algorithm).count alg = 1 :=
      List.count_eq_one_of_mem (one.nodup_iff.mpr distinct) (one.mem_iff.mpr algIn)
    rw [List.count_eq_countP, List.countP_map, List.countP_eq_length_filter] at count
    rw [← count]
    congr 1
  obtain ⟨row, same⟩ := List.length_eq_one_iff.mp single
  refine ⟨row, own.trans same, fun column => ?_⟩
  rw [ownValue, ← List.head?_filter, same]
  rfl

end Own

section Exact

variable {csv : ReadCsv} {names : TypePrefix → AlgKind → List String} {numRuns : Nat} {dir : SpeedDir}

def codeMetrics (numRuns : Nat) (table : Nat → List TlsSpeedRow) (alg : String) (metrics : List String) : List (Option Rat) :=
  metrics.map fun column => mean ((combinedSpeed ((runs numRuns).map fun run => (run, selectedSpeed alg table run))).filterMap
    fun row => row.cells column)

def ownMetrics (numRuns : Nat) (table : Nat → List TlsSpeedRow) (alg : String) (metrics : List String) : List (Option Rat) :=
  metrics.map fun column => mean ((runs numRuns).filterMap fun run => ownValue (table run) alg column)

def TextTables (csv : ReadCsv) (numRuns : Nat) (dir : SpeedDir) : Prop :=
  ∀ test kind, ∀ run ∈ runs numRuns, csv.isText ((speedTable dir test kind run).map TlsSpeedRow.algorithm) = true

theorem tableHeld (rows : OneRowPerAlg names numRuns dir) (test : TypePrefix) (kind : AlgKind) {run : Nat}
    (member : run ∈ runs (max 1 numRuns)) : dir (tlsSpeedFile test kind run) = some (speedTable dir test kind run) ∧
      ((speedTable dir test kind run).map TlsSpeedRow.algorithm).Perm (names test kind) := by
  obtain ⟨table, there, one⟩ := rows test kind run member
  rw [speedTable, there]
  exact ⟨rfl, one⟩

theorem speedAvgsRead (rows : OneRowPerAlg names numRuns dir) (text : TextTables csv numRuns dir) (test : TypePrefix)
    (kind : AlgKind) :
    speedAvgs csv numRuns dir test kind = some (((speedTable dir test kind 1).map TlsSpeedRow.algorithm).map fun alg =>
      ⟨alg, codeMetrics numRuns (speedTable dir test kind) alg kind.speedHeaders.tail⟩) := by
  have parts : ∀ alg, ((runs numRuns).mapM fun run => (dir (tlsSpeedFile test kind run)).bind (currentRunDf csv alg run)) =
      some ((runs numRuns).map fun run => (run, selectedSpeed alg (speedTable dir test kind) run)) := by
    intro alg
    refine (Appending.mapExact _).mpr fun run member => ?_
    rw [(tableHeld rows test kind (runRead member)).1, Option.bind_some, currentRunText (text test kind run member)]
    rfl
  rw [speedAvgs, getSpeedAlgs, (tableHeld rows test kind (firstRead numRuns)).1, Option.map_some, Option.bind_some]
  refine (Appending.mapExact _).mpr fun alg _ => ?_
  rw [parts, Option.map_some, speedAvgRow, metricHeadersTail]
  rfl

theorem textTablesSome (rows : OneRowPerAlg names numRuns dir) (exact_ : SpeedAvgsExact csv numRuns dir) :
    TextTables csv numRuns dir := by
  intro test kind run member
  have each := (Appending.mapExact speedFiles).mp exact_ (test, kind) (speedFilesAll test kind)
  obtain ⟨averages, done, -⟩ := Option.map_eq_some_iff.mp each
  obtain ⟨algs, read, done⟩ := Option.bind_eq_some_iff.mp done
  obtain ⟨held, one⟩ := tableHeld rows test kind (firstRead numRuns)
  rw [getSpeedAlgs, held, Option.map_some] at read
  cases read
  cases listed : (speedTable dir test kind 1).map TlsSpeedRow.algorithm with
  | nil =>
    rw [listed] at one
    have none_ := (tableHeld rows test kind (runRead member)).2
    rw [← one.nil_eq] at none_
    rw [none_.eq_nil]
    rfl
  | cons alg others =>
    rw [listed] at done
    obtain ⟨row, given⟩ := Appending.mapGiven done List.mem_cons_self
    obtain ⟨parts, given, -⟩ := Option.map_eq_some_iff.mp given
    obtain ⟨part, given⟩ := Appending.mapGiven given member
    rw [(tableHeld rows test kind (runRead member)).1, Option.bind_some] at given
    exact currentRunSome given

theorem speedExactEach (rows : OneRowPerAlg names numRuns dir) (text : TextTables csv numRuns dir) :
    SpeedAvgsExact csv numRuns dir ↔
    ∀ test kind, ∀ alg ∈ names test kind, codeMetrics numRuns (speedTable dir test kind) alg kind.speedHeaders.tail =
      ownMetrics numRuns (speedTable dir test kind) alg kind.speedHeaders.tail := by
  have listed : ∀ test kind alg, alg ∈ (speedTable dir test kind 1).map TlsSpeedRow.algorithm ↔ alg ∈ names test kind :=
    fun test kind alg => (tableHeld rows test kind (firstRead numRuns)).2.mem_iff
  unfold SpeedAvgsExact genSpeedAvgs
  simp only [Appending.mapExact, speedAvgsRead rows text, Option.map_some, Option.some.injEq, Prod.mk.injEq, true_and]
  constructor
  · intro exact_ test kind alg algIn
    have same := List.map_inj_left.mp (exact_ (test, kind) (speedFilesAll test kind)) alg ((listed test kind alg).mpr algIn)
    exact (TlsSpeedAvgRow.mk.inj same).2
  · intro exact_ file _
    refine List.map_congr_left fun alg algIn => ?_
    exact congrArg (TlsSpeedAvgRow.mk alg) (exact_ file.1 file.2 alg ((listed file.1 file.2 alg).mp algIn))

theorem metricsOwn {names : List String} (distinct : names.Nodup) (separate : Separate names) {table : Nat → List TlsSpeedRow}
    (one : ∀ run ∈ runs numRuns, ((table run).map TlsSpeedRow.algorithm).Perm names) (positive : 0 < numRuns) {alg : String}
    (algIn : alg ∈ names) (metrics : List String) :
    codeMetrics numRuns table alg metrics = ownMetrics numRuns table alg metrics := by
  have selected := fun run (member : run ∈ runs numRuns) => selectedOwn distinct separate (one run member) algIn
  have combined : combinedSpeed ((runs numRuns).map fun run => (run, selectedSpeed alg table run)) =
      (runs numRuns).flatMap (selectedSpeed alg table) := by
    obtain ⟨later, rfl⟩ := Nat.exists_eq_succ_of_ne_zero (Nat.ne_of_gt positive)
    rw [combinedRead, runs, List.range'_succ, List.flatMap_cons]
    congr 1
    refine List.flatMap_congr fun run member => ?_
    obtain ⟨row, same, -⟩ := selected run (by rw [runs, List.range'_succ]; exact List.mem_cons_of_mem _ member)
    rw [selectedSpeed, same]
    rfl
  refine List.map_congr_left fun column _ => ?_
  rw [combined, List.filterMap_flatMap, List.filterMap_eq_flatMap_toList]
  congr 1
  refine List.flatMap_congr fun run member => ?_
  obtain ⟨row, same, value⟩ := selected run member
  rw [selectedSpeed, same, value, List.filterMap_cons, List.filterMap_nil]
  cases row.cells column <;> rfl

def steadyDir (table : TypePrefix → AlgKind → List TlsSpeedRow) (name : String) : Option (List TlsSpeedRow) :=
  some (if Text.startsWith name "tls_speed_kem_" then table .pqc .kem
    else if Text.startsWith name "tls_speed_sig_" then table .pqc .sig
    else if Text.startsWith name "tls_speed_hybrid_kem_" then table .hybrid .kem
    else table .hybrid .sig)

theorem steadyTable (table : TypePrefix → AlgKind → List TlsSpeedRow) (test : TypePrefix) (kind : AlgKind) (run : Nat) :
    steadyDir table (tlsSpeedFile test kind run) = some (table test kind) := by
  have letters : ∀ start more : String, (start ++ "_" ++ more ++ "_" ++ run.repr ++ ".csv").toList =
      start.toList ++ '_' :: more.toList ++ '_' :: (run.repr ++ ".csv").toList := by
    intro start more
    simp only [String.toList_append, List.append_assoc]
    rfl
  unfold steadyDir tlsSpeedFile Text.startsWith
  rw [letters]
  cases test <;> cases kind <;> rfl

def markedSpeed (names : List String) (marked : String) : List TlsSpeedRow :=
  names.map fun name => ⟨name, fun _ => some (if name = marked then 0 else 1)⟩

theorem markedOneRow (names : TypePrefix → AlgKind → List String) (marked : String) (numRuns : Nat) :
    OneRowPerAlg names numRuns (steadyDir fun test kind => markedSpeed (names test kind) marked) := by
  intro test kind run _
  refine ⟨_, steadyTable _ test kind run, ?_⟩
  rw [markedSpeed, List.map_map]
  exact List.Perm.of_eq (List.map_id _)

theorem markedValue {names : List String} {alg : String} (algIn : alg ∈ names) (column : String) :
    ownValue (markedSpeed names alg) alg column = some 0 := by
  rw [ownValue]
  cases found : (markedSpeed names alg).find? fun row => row.algorithm = alg with
  | none =>
    have missing := List.find?_eq_none.mp found _ (List.mem_map_of_mem algIn)
    exact absurd (decide_eq_true rfl) missing
  | some row =>
    have here := List.find?_some found
    have own : row.algorithm = alg := of_decide_eq_true here
    obtain ⟨name, -, rfl⟩ := List.mem_map.mp (List.mem_of_find?_eq_some found)
    exact congrArg some (if_pos own)

def blankSpeed (names : TypePrefix → AlgKind → List String) (test : TypePrefix) (kind : AlgKind) (column : List String)
    (test' : TypePrefix) (kind' : AlgKind) : List TlsSpeedRow :=
  (if test' = test ∧ kind' = kind then column else names test' kind').map fun name => ⟨name, fun _ => none⟩

theorem blankNames (names : TypePrefix → AlgKind → List String) (test : TypePrefix) (kind : AlgKind) (column : List String)
    (test' : TypePrefix) (kind' : AlgKind) : (blankSpeed names test kind column test' kind').map TlsSpeedRow.algorithm =
      if test' = test ∧ kind' = kind then column else names test' kind' := by
  rw [blankSpeed, List.map_map]
  exact List.map_id _

theorem speedText (positive : 0 < numRuns) (exact_ : ∀ dir, OneRowPerAlg names numRuns dir → SpeedAvgsExact csv numRuns dir)
    (test : TypePrefix) (kind : AlgKind) : TextColumn csv (names test kind) := by
  intro column perm
  have rows : OneRowPerAlg names numRuns (steadyDir (blankSpeed names test kind column)) := by
    intro test' kind' run _
    refine ⟨_, steadyTable _ test' kind' run, ?_⟩
    rw [blankNames]
    split
    · next here =>
      rw [here.1, here.2]
      exact perm
    · exact List.Perm.refl _
  have text := textTablesSome rows (exact_ _ rows) test kind 1 (runsMember.mpr ⟨Nat.le_refl _, positive⟩)
  rwa [speedTable, steadyTable, Option.getD_some, blankNames, if_pos ⟨rfl, rfl⟩] at text

theorem speedSeparates (positive : 0 < numRuns) (exact_ : ∀ dir, OneRowPerAlg names numRuns dir → SpeedAvgsExact csv numRuns dir)
    (test : TypePrefix) (kind : AlgKind) : Separate (names test kind) := by
  intro alg algIn other otherIn found
  by_contra differ
  have first : 1 ∈ runs numRuns := runsMember.mpr ⟨Nat.le_refl _, positive⟩
  have rows := markedOneRow names alg numRuns
  have table : speedTable (steadyDir fun test kind => markedSpeed (names test kind) alg) test kind =
      fun _ => markedSpeed (names test kind) alg := by
    funext run
    rw [speedTable, steadyTable]
    rfl
  have metrics := (speedExactEach rows (textTablesSome rows (exact_ _ rows))).mp (exact_ _ rows) test kind alg algIn
  have column : "Keygen" ∈ kind.speedHeaders.tail := by cases kind <;> decide
  rw [table] at metrics
  have means := List.map_inj_left.mp metrics "Keygen" column
  have ownZero : mean ((runs numRuns).filterMap fun _ => ownValue (markedSpeed (names test kind) alg) alg "Keygen") = some 0 :=
    Mean.ofZeroCells first fun run _ => markedValue algIn _
  obtain ⟨later, rfl⟩ := Nat.exists_eq_succ_of_ne_zero (Nat.ne_of_gt positive)
  have stray : (⟨other, fun _ => some (if other = alg then 0 else 1)⟩ : TlsSpeedRow) ∈
      selectedSpeed alg (fun _ => markedSpeed (names test kind) alg) 1 :=
    List.mem_filter.mpr ⟨List.mem_map_of_mem otherIn, found⟩
  rw [combinedRead] at means
  refine Mean.ofMarkedCells (fun row => row.algorithm = alg) (fun row member => ?_) (List.mem_append_left _ stray) differ
    (means.trans ownZero)
  have inside : row ∈ markedSpeed (names test kind) alg := by
    cases List.mem_append.mp member with
    | inl early => exact (List.mem_filter.mp early).1
    | inr late =>
      obtain ⟨run, -, late⟩ := List.mem_flatMap.mp late
      exact (List.mem_filter.mp (List.mem_of_mem_take late)).1
  obtain ⟨name, -, rfl⟩ := List.mem_map.mp inside
  rfl

end Exact

theorem tlsSpeedAverages (csv : ReadCsv) {names : TypePrefix → AlgKind → List String}
    (distinct : ∀ test kind, (names test kind).Nodup) (numRuns : Nat) :
    (∀ dir, OneRowPerAlg names numRuns dir → SpeedAvgsExact csv numRuns dir) ↔
      numRuns = 0 ∨ ∀ test kind, Separate (names test kind) ∧ TextColumn csv (names test kind) := by
  constructor
  · intro exact_
    cases Nat.eq_zero_or_pos numRuns with
    | inl none_ => exact .inl none_
    | inr positive =>
      exact .inr fun test kind => ⟨speedSeparates positive exact_ test kind, speedText positive exact_ test kind⟩
  · intro either dir rows
    by_cases none_ : numRuns = 0
    · subst none_
      rw [speedExactEach rows fun _ _ run member => by cases member]
      exact fun _ _ _ _ => rfl
    · have names_ := either.resolve_left none_
      have text : TextTables csv numRuns dir := fun test kind run member =>
        (names_ test kind).2 _ (tableHeld rows test kind (runRead member)).2
      rw [speedExactEach rows text]
      intro test kind alg algIn
      exact metricsOwn (distinct test kind) (names_ test kind).1
        (fun run member => (tableHeld rows test kind (runRead member)).2) (Nat.pos_of_ne_zero none_) algIn _

def snovaNames : TypePrefix → AlgKind → List String
  | .pqc, .sig => ["snova2454", "snova2454esk"]
  | _, _ => []

theorem snovaDistinct (test : TypePrefix) (kind : AlgKind) : (snovaNames test kind).Nodup := by
  cases test <;> cases kind <;> decide

theorem tlsSpeedAveragesTwo : (∀ dir, OneRowPerAlg snovaNames 2 dir → SpeedAvgsExact lettered 2 dir) ↔
    2 = 0 ∨ ∀ test kind, Separate (snovaNames test kind) ∧ TextColumn lettered (snovaNames test kind) :=
  tlsSpeedAverages lettered snovaDistinct 2

theorem snovaSpeedMixed : ¬ ∀ names : TypePrefix → AlgKind → List String, (∀ test kind, (names test kind).Nodup) →
    ∀ numRuns dir, OneRowPerAlg names numRuns dir → SpeedAvgsExact lettered numRuns dir := by
  intro exact_
  have separate := @speedSeparates lettered snovaNames 1 (by decide) (exact_ snovaNames snovaDistinct 1) .pqc .sig
  have found : contains "snova2454esk" "snova2454" = true := by decide
  exact absurd (separate "snova2454" (by decide) "snova2454esk" (by decide) found) (by decide)

end Armor.Results
