import Armor.Lib.Appending
import Armor.Lib.Mean
import Armor.Lib.Text
import Armor.Results.Pandas
import Mathlib.Data.List.ProdSigma

/-! `ComputationalAverager`: the average rows of the memory and speed results over all runs, against
the means of the rows of each algorithm and operation. -/
namespace Armor.Results
open Text (contains)

structure PerfRow (κ : Type) where
  algorithm : String
  operation : String
  cells : κ → Option Rat

structure AvgRow where
  algorithm : String
  operation : String
  metrics : List (Option Rat)
  deriving DecidableEq

def kemOperations : List String := ["keygen", "encaps", "decaps"]
def sigOperations : List String := ["keypair", "sign", "verify"]

inductive MemField where
  | intits
  | peakBytes
  | heap
  | extHeap
  | stack
  deriving DecidableEq, Repr

def memFieldnames : List MemField := [.intits, .peakBytes, .heap, .extHeap, .stack]

section Averager

variable (csv : ReadCsv) {ρ κ : Type}

def runs (numRuns : Nat) : List Nat := List.range' 1 numRuns

theorem runsMember {numRuns run : Nat} : run ∈ runs numRuns ↔ 1 ≤ run ∧ run ≤ numRuns := by
  rw [runs, List.mem_range'_1]
  omega

def selectRuns (column : ρ → String) (found : String → Bool) (numRuns : Nat) (table : Nat → List ρ) :
    Option (List (Nat × List ρ)) :=
  (runs numRuns).mapM fun run => (csv.select column found (table run)).map fun selected => (run, selected)

def combinedOperations (alg : String) (numRuns : Nat) (table : Nat → List (PerfRow κ)) : Option (List (PerfRow κ)) :=
  (selectRuns csv PerfRow.algorithm (contains · alg) numRuns table).map fun parts =>
    parts.foldl (fun combined part => if part.1 = 1 then part.2 else part.2 ++ combined) []

def operationAverage (combined : List (PerfRow κ)) (operation : String) (column : κ) : Option Rat :=
  mean ((combined.filter fun row => contains row.operation operation).filterMap fun row => row.cells column)

def averageRows (algs operations : List String) (columns : List κ) (numRuns : Nat) (table : Nat → List (PerfRow κ)) :
    Option (List AvgRow) :=
  (algs.mapM fun alg => (combinedOperations csv alg numRuns table).map fun combined =>
    operations.map fun operation => ⟨alg, operation, columns.map (operationAverage combined operation)⟩).map List.flatten

end Averager

structure ComputationalAverager where
  kemAlgs : List String
  sigAlgs : List String
  numRuns : Nat

/-- The rows of `kem_mem_avg.csv` and `sig_mem_avg.csv`. The KEM operations are searched as regular
expressions, which for letters is containment too. -/
def ComputationalAverager.avgMem (a : ComputationalAverager) (csv : ReadCsv)
    (kemTable sigTable : Nat → List (PerfRow MemField)) : Option (List AvgRow × List AvgRow) :=
  (averageRows csv a.kemAlgs kemOperations memFieldnames a.numRuns kemTable).bind fun kemMemAvg =>
    (averageRows csv a.sigAlgs sigOperations memFieldnames a.numRuns sigTable).map fun sigMemAvg => (kemMemAvg, sigMemAvg)

/-- The rows of `kem_speed_avg.csv` and `sig_speed_avg.csv`, for the metric columns of the first file. -/
def ComputationalAverager.avgSpeed (a : ComputationalAverager) (csv : ReadCsv) (speedFieldnames : List String)
    (kemTable sigTable : Nat → List (PerfRow String)) : Option (List AvgRow × List AvgRow) :=
  (averageRows csv a.kemAlgs kemOperations speedFieldnames a.numRuns kemTable).bind fun kemSpeedAvg =>
    (averageRows csv a.sigAlgs sigOperations speedFieldnames a.numRuns sigTable).map fun sigSpeedAvg =>
      (kemSpeedAvg, sigSpeedAvg)

section Meant

variable {κ : Type}

def ownMean (alg operation : String) (numRuns : Nat) (table : Nat → List (PerfRow κ)) (column : κ) : Option Rat :=
  mean ((runs numRuns).flatMap fun run =>
    ((table run).filter fun row => row.algorithm = alg ∧ row.operation = operation).filterMap fun row => row.cells column)

def ownRows (algs operations : List String) (columns : List κ) (numRuns : Nat) (table : Nat → List (PerfRow κ)) :
    List AvgRow :=
  algs.flatMap fun alg => operations.map fun operation =>
    ⟨alg, operation, columns.map (ownMean alg operation numRuns table)⟩

def OneRowEach (algs operations : List String) (table : Nat → List (PerfRow κ)) : Prop :=
  ∀ run, ((table run).map fun row => (row.algorithm, row.operation)).Perm (algs ×ˢ operations)

def TextNames (csv : ReadCsv) (algs operations : List String) : Prop :=
  ∀ keys : List (String × String), keys.Perm (algs ×ˢ operations) → csv.isText (keys.map Prod.fst) = true

def Separate (names : List String) : Prop := ∀ name ∈ names, ∀ other ∈ names, contains other name = true → other = name

theorem separateOne (name : String) : Separate [name] := by
  intro first firstIn other otherIn _
  rw [List.mem_singleton.mp firstIn, List.mem_singleton.mp otherIn]

theorem Separate.found {names : List String} (separate : Separate names) {name other : String} (nameIn : name ∈ names)
    (otherIn : other ∈ names) : contains other name = true ↔ other = name :=
  ⟨separate name nameIn other otherIn, fun same => same ▸ Text.containsRefl _⟩

section Selected

variable {csv : ReadCsv} {ρ : Type} {column : ρ → String} {found : String → Bool} {numRuns : Nat} {table : Nat → List ρ}

theorem selectRunsText (text : ∀ run ∈ runs numRuns, csv.isText ((table run).map column) = true) :
    selectRuns csv column found numRuns table =
      some ((runs numRuns).map fun run => (run, (table run).filter fun row => found (column row))) := by
  refine (Appending.mapExact _).mpr fun run member => ?_
  rw [ReadCsv.selectText (text run member)]
  rfl

theorem selectRunsSome {parts : List (Nat × List ρ)} (done : selectRuns csv column found numRuns table = some parts)
    {run : Nat} (member : run ∈ runs numRuns) : csv.isText ((table run).map column) = true := by
  obtain ⟨part, given⟩ := Appending.mapGiven done member
  obtain ⟨selected, done, -⟩ := Option.map_eq_some_iff.mp given
  exact ReadCsv.selectSome done

end Selected

def combinedRows (alg : String) (numRuns : Nat) (table : Nat → List (PerfRow κ)) : List (PerfRow κ) :=
  (runs numRuns).foldl (fun combined run =>
    let selected := (table run).filter fun row => contains row.algorithm alg
    if run = 1 then selected else selected ++ combined) []

theorem combinedOperationsText {csv : ReadCsv} (alg : String) {numRuns : Nat} {table : Nat → List (PerfRow κ)}
    (text : ∀ run ∈ runs numRuns, csv.isText ((table run).map PerfRow.algorithm) = true) :
    combinedOperations csv alg numRuns table = some (combinedRows alg numRuns table) := by
  rw [combinedOperations, selectRunsText text, Option.map_some, List.foldl_map]
  rfl

theorem laterRunsPerm (alg : String) (table : Nat → List (PerfRow κ)) (later : List Nat) (others : ∀ run ∈ later, run ≠ 1)
    (combined : List (PerfRow κ)) :
    (later.foldl (fun combined run =>
      let selected := (table run).filter fun row => contains row.algorithm alg
      if run = 1 then selected else selected ++ combined) combined).Perm
      (combined ++ later.flatMap fun run => (table run).filter fun row => contains row.algorithm alg) := by
  induction later generalizing combined with
  | nil => rw [List.foldl_nil, List.flatMap_nil, List.append_nil]
  | cons run later ih =>
    rw [List.foldl_cons, List.flatMap_cons, if_neg (others run List.mem_cons_self)]
    refine (ih (fun r member => others r (List.mem_cons_of_mem _ member)) _).trans ?_
    rw [← List.append_assoc]
    exact List.perm_append_comm.append_right _

theorem combinedPerm (alg : String) (numRuns : Nat) (table : Nat → List (PerfRow κ)) :
    (combinedRows alg numRuns table).Perm
      ((runs numRuns).flatMap fun run => (table run).filter fun row => contains row.algorithm alg) := by
  unfold combinedRows runs
  cases numRuns with
  | zero => exact List.Perm.refl _
  | succ n =>
    rw [List.range'_succ, List.foldl_cons, List.flatMap_cons, if_pos rfl]
    refine laterRunsPerm alg table _ (fun run member => ?_) _
    have above := (List.mem_range'_1.mp member).1
    omega

theorem operationMean (alg operation : String) (numRuns : Nat) (table : Nat → List (PerfRow κ)) (column : κ) :
    operationAverage (combinedRows alg numRuns table) operation column = mean ((runs numRuns).flatMap fun run =>
      ((table run).filter fun row => contains row.algorithm alg && contains row.operation operation).filterMap
        fun row => row.cells column) := by
  unfold operationAverage
  rw [Mean.ofPerm (((combinedPerm alg numRuns table).filter _).filterMap _)]
  congr 1
  rw [List.filter_flatMap, List.filterMap_flatMap]
  congr
  funext run
  rw [List.filter_filter]
  congr
  funext row
  exact Bool.and_comm _ _

theorem rowMember {algs operations : List String} {table : Nat → List (PerfRow κ)} (rows : OneRowEach algs operations table)
    {run : Nat} {row : PerfRow κ} (member : row ∈ table run) : row.algorithm ∈ algs ∧ row.operation ∈ operations := by
  have key : (row.algorithm, row.operation) ∈ algs ×ˢ operations :=
    (rows run).mem_iff.mp (List.mem_map.mpr ⟨row, member, rfl⟩)
  exact List.pair_mem_product.mp key

theorem averageText {csv : ReadCsv} (algs operations : List String) (columns : List κ) {numRuns : Nat}
    {table : Nat → List (PerfRow κ)} (text : ∀ run ∈ runs numRuns, csv.isText ((table run).map PerfRow.algorithm) = true) :
    averageRows csv algs operations columns numRuns table = some (algs.flatMap fun alg => operations.map fun operation =>
      ⟨alg, operation, columns.map (operationAverage (combinedRows alg numRuns table) operation)⟩) := by
  refine Appending.mapFlatten fun alg _ => ?_
  rw [combinedOperationsText alg text, Option.map_some]

theorem averageSome {csv : ReadCsv} {algs operations : List String} {columns : List κ} {numRuns : Nat}
    {table : Nat → List (PerfRow κ)} {rows : List AvgRow}
    (done : averageRows csv algs operations columns numRuns table = some rows) (some_ : algs ≠ []) :
    ∀ run ∈ runs numRuns, csv.isText ((table run).map PerfRow.algorithm) = true := by
  intro run member
  obtain ⟨alg, algIn⟩ := List.exists_mem_of_ne_nil algs some_
  obtain ⟨averages, done, -⟩ := Option.map_eq_some_iff.mp done
  obtain ⟨own, given⟩ := Appending.mapGiven done algIn
  obtain ⟨combined, given, -⟩ := Option.map_eq_some_iff.mp given
  obtain ⟨parts, given, -⟩ := Option.map_eq_some_iff.mp given
  exact selectRunsSome given member

theorem averageExact {csv : ReadCsv} {algs operations : List String} (separateAlgs : Separate algs)
    (separateOperations : Separate operations) (columns : List κ) {numRuns : Nat} {table : Nat → List (PerfRow κ)}
    (text : ∀ run ∈ runs numRuns, csv.isText ((table run).map PerfRow.algorithm) = true) (rows : OneRowEach algs operations table) :
    averageRows csv algs operations columns numRuns table = some (ownRows algs operations columns numRuns table) := by
  rw [averageText algs operations columns text]
  unfold ownRows
  congr 1
  refine List.flatMap_congr fun alg algIn => List.map_congr_left fun operation operationIn => ?_
  have cells : operationAverage (combinedRows alg numRuns table) operation = ownMean alg operation numRuns table := by
    funext column
    rw [operationMean, ownMean]
    congr 1
    refine List.flatMap_congr fun run _ => ?_
    congr 1
    refine List.filter_congr fun row member => ?_
    obtain ⟨algMember, operationMember⟩ := rowMember rows member
    rw [Bool.eq_iff_iff, Bool.and_eq_true, separateAlgs.found algIn algMember,
      separateOperations.found operationIn operationMember, decide_eq_true_eq]
  rw [cells]

theorem textColumns {csv : ReadCsv} {algs operations : List String} (text : TextNames csv algs operations)
    {table : Nat → List (PerfRow κ)} (rows : OneRowEach algs operations table) (run : Nat) :
    csv.isText ((table run).map PerfRow.algorithm) = true := by
  have names := text _ (rows run)
  rwa [List.map_map] at names

def markedTable (algs operations : List String) (marked : String) (_run : Nat) : List (PerfRow κ) :=
  (algs ×ˢ operations).map fun key => ⟨key.1, key.2, fun _ => some (if key.1 = marked then 0 else 1)⟩

theorem markedOneRowEach (algs operations : List String) (marked : String) :
    OneRowEach algs operations (markedTable (κ := κ) algs operations marked) := by
  intro run
  have keys : (markedTable (κ := κ) algs operations marked run).map (fun row => (row.algorithm, row.operation)) =
      algs ×ˢ operations := by
    rw [markedTable, List.map_map]
    exact List.map_id _
  rw [keys]

theorem markedMember {algs operations : List String} {alg operation : String} (algIn : alg ∈ algs)
    (operationIn : operation ∈ operations) (marked : String) (run : Nat) :
    (⟨alg, operation, fun _ => some (if alg = marked then 0 else 1)⟩ : PerfRow κ) ∈
      markedTable algs operations marked run :=
  List.mem_map.mpr ⟨(alg, operation), List.pair_mem_product.mpr ⟨algIn, operationIn⟩, rfl⟩

theorem markedCells {algs operations : List String} {marked : String} {run : Nat} {row : PerfRow κ}
    (member : row ∈ markedTable algs operations marked run) (column : κ) :
    row.cells column = some (if row.algorithm = marked then 0 else 1) := by
  obtain ⟨key, -, rfl⟩ := List.mem_map.mp member
  rfl

theorem sameEach {β δ : Type} {algs : List String} {operations : List δ} {entry entry' : String → δ → β}
    (same : (algs.flatMap fun alg => operations.map fun operation => entry alg operation) =
      algs.flatMap fun alg => operations.map fun operation => entry' alg operation) {alg : String} {operation : δ}
    (algIn : alg ∈ algs) (operationIn : operation ∈ operations) : entry alg operation = entry' alg operation := by
  have rows := Appending.flatMapEach (fun alg => by rw [List.length_map, List.length_map]) same algIn
  exact List.map_inj_left.mp rows operation operationIn

def blankTable (keys : List (String × String)) (_run : Nat) : List (PerfRow κ) :=
  keys.map fun key => ⟨key.1, key.2, fun _ => none⟩

theorem averageNames {csv : ReadCsv} {algs operations : List String} {columns : List κ} {numRuns : Nat} (positive : 0 < numRuns)
    (exact_ : ∀ table, OneRowEach algs operations table →
      averageRows csv algs operations columns numRuns table = some (ownRows algs operations columns numRuns table)) :
    TextNames csv algs operations := by
  intro keys perm
  by_cases some_ : algs = []
  · subst some_
    rw [List.Perm.eq_nil perm]
    rfl
  · have rows : OneRowEach algs operations (blankTable (κ := κ) keys) := by
      intro run
      rw [blankTable, List.map_map]
      exact (List.Perm.of_eq (List.map_id _)).trans perm
    have text := averageSome (exact_ _ rows) some_ 1 (runsMember.mpr ⟨Nat.le_refl _, positive⟩)
    rwa [blankTable, List.map_map] at text

theorem averageSeparates {csv : ReadCsv} {algs operations : List String} {operation : String}
    (operationIn : operation ∈ operations) {columns : List κ} {column : κ} (columnIn : column ∈ columns) {numRuns : Nat}
    (positive : 0 < numRuns) (exact_ : ∀ table, OneRowEach algs operations table →
      averageRows csv algs operations columns numRuns table = some (ownRows algs operations columns numRuns table)) :
    Separate algs := by
  intro name nameIn other otherIn found
  by_contra differ
  have first : 1 ∈ runs numRuns := runsMember.mpr ⟨Nat.le_refl _, positive⟩
  have marked := exact_ (markedTable algs operations name) (markedOneRowEach algs operations name)
  rw [averageText algs operations columns (averageSome marked (List.ne_nil_of_mem nameIn))] at marked
  have same := Option.some.inj marked
  have ownZero : ownMean name operation numRuns (markedTable algs operations name) column = some 0 := by
    have own : (⟨name, operation, fun _ => some (if name = name then 0 else 1)⟩ : PerfRow κ) ∈ (runs numRuns).flatMap fun run =>
        (markedTable algs operations name run).filter fun row => row.algorithm = name ∧ row.operation = operation :=
      List.mem_flatMap.mpr ⟨1, first, List.mem_filter.mpr ⟨markedMember nameIn operationIn name 1, decide_eq_true ⟨rfl, rfl⟩⟩⟩
    rw [ownMean, ← List.filterMap_flatMap]
    refine Mean.ofZeroCells own fun row member => ?_
    obtain ⟨run, -, member⟩ := List.mem_flatMap.mp member
    obtain ⟨member, own⟩ := List.mem_filter.mp member
    rw [markedCells member, if_pos (of_decide_eq_true own).1]
  have codeNonzero : operationAverage (combinedRows name numRuns (markedTable algs operations name)) operation column ≠
      some 0 := by
    have stray : (⟨other, operation, fun _ => some (if other = name then 0 else 1)⟩ : PerfRow κ) ∈ (runs numRuns).flatMap
        fun run => (markedTable algs operations name run).filter
          fun row => contains row.algorithm name && contains row.operation operation := by
      refine List.mem_flatMap.mpr ⟨1, first, List.mem_filter.mpr ⟨markedMember otherIn operationIn name 1, ?_⟩⟩
      rw [found, Text.containsRefl]
      rfl
    rw [operationMean, ← List.filterMap_flatMap]
    refine Mean.ofMarkedCells (fun row => row.algorithm = name) (fun row member => ?_) stray differ
    obtain ⟨run, -, member⟩ := List.mem_flatMap.mp member
    exact markedCells (List.mem_filter.mp member).1 column
  have rows := sameEach same nameIn operationIn
  have cells := (AvgRow.mk.inj rows).2.2
  exact codeNonzero ((List.map_inj_left.mp cells column columnIn).trans ownZero)

end Meant

theorem bothAverages {kem sig : Option (List AvgRow)} {kemOwn sigOwn : List AvgRow} :
    (kem.bind fun kemAvg => sig.map fun sigAvg => (kemAvg, sigAvg)) = some (kemOwn, sigOwn) ↔
      kem = some kemOwn ∧ sig = some sigOwn := by
  cases kem with
  | none => exact ⟨nofun, fun both => nomatch both.1⟩
  | some kem =>
    cases sig with
    | none => exact ⟨nofun, fun both => nomatch both.2⟩
    | some sig =>
      rw [Option.bind_some, Option.map_some, Option.some.injEq, Prod.mk.injEq, Option.some.injEq, Option.some.injEq]

theorem kemOperationsSeparate : Separate kemOperations := by
  unfold Separate
  decide

theorem sigOperationsSeparate : Separate sigOperations := by
  unfold Separate
  decide

theorem computationalAverages (a : ComputationalAverager) (csv : ReadCsv) (positive : 0 < a.numRuns)
    (speedFieldnames : List String) :
    (∀ kemMem sigMem, OneRowEach a.kemAlgs kemOperations kemMem → OneRowEach a.sigAlgs sigOperations sigMem →
      ∀ kemSpeed sigSpeed, OneRowEach a.kemAlgs kemOperations kemSpeed → OneRowEach a.sigAlgs sigOperations sigSpeed →
        a.avgMem csv kemMem sigMem = some (ownRows a.kemAlgs kemOperations memFieldnames a.numRuns kemMem,
          ownRows a.sigAlgs sigOperations memFieldnames a.numRuns sigMem) ∧
        a.avgSpeed csv speedFieldnames kemSpeed sigSpeed =
          some (ownRows a.kemAlgs kemOperations speedFieldnames a.numRuns kemSpeed,
            ownRows a.sigAlgs sigOperations speedFieldnames a.numRuns sigSpeed)) ↔
      (Separate a.kemAlgs ∧ Separate a.sigAlgs) ∧
        TextNames csv a.kemAlgs kemOperations ∧ TextNames csv a.sigAlgs sigOperations := by
  constructor
  · intro exact_
    have kemAny := @markedOneRowEach MemField a.kemAlgs kemOperations ""
    have sigAny := @markedOneRowEach MemField a.sigAlgs sigOperations ""
    have kemSpeedAny := @markedOneRowEach String a.kemAlgs kemOperations ""
    have sigSpeedAny := @markedOneRowEach String a.sigAlgs sigOperations ""
    have kemExact : ∀ table, OneRowEach a.kemAlgs kemOperations table →
        averageRows csv a.kemAlgs kemOperations memFieldnames a.numRuns table =
          some (ownRows a.kemAlgs kemOperations memFieldnames a.numRuns table) := fun table rows =>
      (bothAverages.mp (exact_ table _ rows sigAny _ _ kemSpeedAny sigSpeedAny).1).1
    have sigExact : ∀ table, OneRowEach a.sigAlgs sigOperations table →
        averageRows csv a.sigAlgs sigOperations memFieldnames a.numRuns table =
          some (ownRows a.sigAlgs sigOperations memFieldnames a.numRuns table) := fun table rows =>
      (bothAverages.mp (exact_ _ table kemAny rows _ _ kemSpeedAny sigSpeedAny).1).2
    have column : MemField.heap ∈ memFieldnames := by decide
    have keygen : "keygen" ∈ kemOperations := by decide
    have sign : "sign" ∈ sigOperations := by decide
    exact ⟨⟨averageSeparates keygen column positive kemExact, averageSeparates sign column positive sigExact⟩,
      averageNames positive kemExact, averageNames positive sigExact⟩
  · rintro ⟨⟨kem, sig⟩, kemText, sigText⟩ kemMem sigMem kemMemRows sigMemRows kemSpeed sigSpeed kemSpeedRows sigSpeedRows
    constructor
    · exact bothAverages.mpr
        ⟨averageExact kem kemOperationsSeparate memFieldnames (fun run _ => textColumns kemText kemMemRows run) kemMemRows,
          averageExact sig sigOperationsSeparate memFieldnames (fun run _ => textColumns sigText sigMemRows run) sigMemRows⟩
    · exact bothAverages.mpr
        ⟨averageExact kem kemOperationsSeparate speedFieldnames (fun run _ => textColumns kemText kemSpeedRows run) kemSpeedRows,
          averageExact sig sigOperationsSeparate speedFieldnames (fun run _ => textColumns sigText sigSpeedRows run) sigSpeedRows⟩

def bikeDilithium : ComputationalAverager := ⟨["BIKE-L1"], ["Dilithium2"], 2⟩

theorem computationalAveragesTwoRuns : (∀ kemMem sigMem, OneRowEach bikeDilithium.kemAlgs kemOperations kemMem →
      OneRowEach bikeDilithium.sigAlgs sigOperations sigMem → ∀ kemSpeed sigSpeed,
      OneRowEach bikeDilithium.kemAlgs kemOperations kemSpeed → OneRowEach bikeDilithium.sigAlgs sigOperations sigSpeed →
        bikeDilithium.avgMem lettered kemMem sigMem =
          some (ownRows bikeDilithium.kemAlgs kemOperations memFieldnames bikeDilithium.numRuns kemMem,
            ownRows bikeDilithium.sigAlgs sigOperations memFieldnames bikeDilithium.numRuns sigMem) ∧
        bikeDilithium.avgSpeed lettered ["Iterations"] kemSpeed sigSpeed =
          some (ownRows bikeDilithium.kemAlgs kemOperations ["Iterations"] bikeDilithium.numRuns kemSpeed,
            ownRows bikeDilithium.sigAlgs sigOperations ["Iterations"] bikeDilithium.numRuns sigSpeed)) ↔
      (Separate bikeDilithium.kemAlgs ∧ Separate bikeDilithium.sigAlgs) ∧
        TextNames lettered bikeDilithium.kemAlgs kemOperations ∧ TextNames lettered bikeDilithium.sigAlgs sigOperations :=
  computationalAverages bikeDilithium lettered (by decide) ["Iterations"]

def mcEliece : ComputationalAverager := ⟨["Classic-McEliece-348864", "Classic-McEliece-348864f"], [], 1⟩

theorem mcElieceMixed : ¬ ∀ a : ComputationalAverager, a.kemAlgs.Nodup → a.sigAlgs.Nodup → 0 < a.numRuns →
    ∀ kemMem sigMem, OneRowEach a.kemAlgs kemOperations kemMem → OneRowEach a.sigAlgs sigOperations sigMem →
      a.avgMem lettered kemMem sigMem = some (ownRows a.kemAlgs kemOperations memFieldnames a.numRuns kemMem,
        ownRows a.sigAlgs sigOperations memFieldnames a.numRuns sigMem) := by
  intro exact_
  have column : MemField.heap ∈ memFieldnames := by decide
  have operation : "keygen" ∈ kemOperations := by decide
  have distinct : mcEliece.kemAlgs.Nodup ∧ mcEliece.sigAlgs.Nodup ∧ 0 < mcEliece.numRuns := by decide
  have sigAny := @markedOneRowEach MemField mcEliece.sigAlgs sigOperations ""
  have separate : Separate mcEliece.kemAlgs := by
    refine @averageSeparates _ lettered _ _ _ operation _ _ column _ distinct.2.2 fun table rows => ?_
    exact (bothAverages.mp (exact_ mcEliece distinct.1 distinct.2.1 distinct.2.2 table _ rows sigAny)).1
  have found : contains "Classic-McEliece-348864f" "Classic-McEliece-348864" = true := by decide
  have same := separate "Classic-McEliece-348864" (by decide) "Classic-McEliece-348864f" (by decide) found
  exact absurd same (by decide)

end Armor.Results
