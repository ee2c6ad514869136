import Armor.Results.HandshakeAverages
import Mathlib.Data.List.Dedup

/-! `TLSAverager.gen_classic_avgs`: the first-use and reuse averages of each ciphersuite and classic
algorithm over the runs. -/
namespace Armor.Results
open Text (contains)

structure ClassicRow where
  ciphersuite : String
  classicAlgorithm : String
  reusedSessionId : String
  cells : TlsColumn → Option Rat

structure ClassicAvgRow where
  ciphersuite : String
  classicAlgorithm : String
  reusedSessionId : String
  metrics : List (Option Rat)
  deriving DecidableEq

structure CurveFrames where
  first : List ClassicRow
  reused : List ClassicRow

variable (csv : ReadCsv)

def curveDf (cipher alg : String) (currentRun : List ClassicRow) : Option (List ClassicRow) :=
  (csv.select ClassicRow.ciphersuite (contains · cipher) currentRun).bind
    (csv.strContains (currentRun.map ClassicRow.classicAlgorithm) ClassicRow.classicAlgorithm (contains · alg))

def curveStep (frames : CurveFrames) (run : Nat) (curve : List ClassicRow) : CurveFrames :=
  if run = 1 then ⟨curve.take 1, (curve.drop 1).take 1⟩
  else
    let first := frames.first ++ curve.take 1
    -- the reuse row joins the first-use rows
    ⟨first, first ++ (curve.drop 1).take 1⟩

def combinedCurves (cipher alg : String) (numRuns : Nat) (table : Nat → List ClassicRow) : Option CurveFrames :=
  ((runs numRuns).mapM fun run => (curveDf csv cipher alg (table run)).map fun curve => (run, curve)).map fun curves =>
    curves.foldl (fun frames part => curveStep frames part.1 part.2) ⟨[], []⟩

def columnMeans (rows : List ClassicRow) : List (Option Rat) :=
  tlsColumns.map fun column => mean (rows.filterMap fun row => row.cells column)

def averagePair (cipher alg : String) (frames : CurveFrames) : List ClassicAvgRow :=
  [⟨cipher, alg, "", columnMeans frames.first⟩, ⟨cipher, alg, "*", columnMeans frames.reused⟩]

def genClassicAvgs (ciphers classicAlgs : List String) (numRuns : Nat) (table : Nat → List ClassicRow) :
    Option (List ClassicAvgRow) :=
  (ciphers.mapM fun cipher => (classicAlgs.mapM fun alg =>
    (combinedCurves csv cipher alg numRuns table).map (averagePair cipher alg)).map List.flatten).map List.flatten

def ownCurve (cipher alg mark : String) (currentRun : List ClassicRow) : List ClassicRow :=
  currentRun.filter fun row => (row.ciphersuite = cipher ∧ row.classicAlgorithm = alg) ∧ row.reusedSessionId = mark

def ownCurves (cipher alg mark : String) (numRuns : Nat) (table : Nat → List ClassicRow) : List ClassicRow :=
  (runs numRuns).flatMap fun run => ownCurve cipher alg mark (table run)

def ownClassicAvgs (ciphers classicAlgs : List String) (numRuns : Nat) (table : Nat → List ClassicRow) : List ClassicAvgRow :=
  ciphers.flatMap fun cipher => classicAlgs.flatMap fun alg =>
    [⟨cipher, alg, "", columnMeans (ownCurves cipher alg "" numRuns table)⟩,
      ⟨cipher, alg, "*", columnMeans (ownCurves cipher alg "*" numRuns table)⟩]

structure TwoRowsEach (ciphers classicAlgs : List String) (currentRun : List ClassicRow) : Prop where
  listed : ∀ row ∈ currentRun, row.ciphersuite ∈ ciphers ∧ row.classicAlgorithm ∈ classicAlgs
  pairs : ∀ cipher ∈ ciphers, ∀ alg ∈ classicAlgs, ∃ first reused : TlsColumn → Option Rat,
    (currentRun.filter fun row => row.ciphersuite = cipher ∧ row.classicAlgorithm = alg) =
      [⟨cipher, alg, "", first⟩, ⟨cipher, alg, "*", reused⟩]

def TextPairs (ciphers classicAlgs : List String) : Prop :=
  ∀ currentRun, TwoRowsEach ciphers classicAlgs currentRun → csv.isText (currentRun.map ClassicRow.ciphersuite) = true ∧
    csv.isText (currentRun.map ClassicRow.classicAlgorithm) = true

theorem runsSucc (numRuns : Nat) : runs (numRuns + 1) = runs numRuns ++ [numRuns + 1] := by
  rw [runs, List.range'_1_concat, Nat.add_comm 1 numRuns]
  rfl

theorem columnMeansPerm {rows other : List ClassicRow} (same : rows.Perm other) : columnMeans rows = columnMeans other :=
  List.map_congr_left fun _ _ => Mean.ofPerm (same.filterMap _)

theorem ownAvgsRenumbered (ciphers classicAlgs : List String) {numRuns : Nat} (table : Nat → List ClassicRow) {number : Nat → Nat}
    (renumbers : ((runs numRuns).map number).Perm (runs numRuns)) :
    ownClassicAvgs ciphers classicAlgs numRuns (fun run => table (number run)) =
      ownClassicAvgs ciphers classicAlgs numRuns table := by
  have same : ∀ cipher alg mark, columnMeans (ownCurves cipher alg mark numRuns fun run => table (number run)) =
      columnMeans (ownCurves cipher alg mark numRuns table) := by
    intro cipher alg mark
    refine columnMeansPerm ?_
    have rows := renumbers.flatMap_right fun run => ownCurve cipher alg mark (table run)
    rwa [List.flatMap_map] at rows
  simp only [ownClassicAvgs, same]

def curveRows (cipher alg : String) (currentRun : List ClassicRow) : List ClassicRow :=
  (currentRun.filter fun row => contains row.ciphersuite cipher).filter fun row => contains row.classicAlgorithm alg

def curveFrames (cipher alg : String) (numRuns : Nat) (table : Nat → List ClassicRow) : CurveFrames :=
  (runs numRuns).foldl (fun frames run => curveStep frames run (curveRows cipher alg (table run))) ⟨[], []⟩

section Read

variable {csv : ReadCsv} {ciphers classicAlgs : List String} {cipher alg : String} {currentRun : List ClassicRow}
  {numRuns : Nat} {table : Nat → List ClassicRow}

theorem curveDfText (cipherText : csv.isText (currentRun.map ClassicRow.ciphersuite) = true)
    (algText : csv.isText (currentRun.map ClassicRow.classicAlgorithm) = true) :
    curveDf csv cipher alg currentRun = some (curveRows cipher alg currentRun) := by
  rw [curveDf, ReadCsv.selectText cipherText, Option.bind_some, ReadCsv.strContainsText algText (List.filter_subset_self _)]
  rfl

theorem curveDfSome (rows : TwoRowsEach ciphers classicAlgs currentRun) (cipherIn : cipher ∈ ciphers) {curve : List ClassicRow}
    (done : curveDf csv cipher alg currentRun = some curve) : csv.isText (currentRun.map ClassicRow.ciphersuite) = true ∧
      csv.isText (currentRun.map ClassicRow.classicAlgorithm) = true := by
  obtain ⟨cipherDf, first, second⟩ := Option.bind_eq_some_iff.mp done
  have cipherText := ReadCsv.selectSome first
  rw [ReadCsv.selectText cipherText] at first
  cases first
  obtain ⟨typed, present⟩ := ReadCsv.strContainsSome second
  refine ⟨cipherText, Bool.and_eq_true_iff.mpr ⟨typed, List.all_eq_true.mpr fun cell member => ?_⟩⟩
  -- each algorithm has a row of this ciphersuite too
  obtain ⟨row, inside, rfl⟩ := List.mem_map.mp member
  obtain ⟨first, reused, pair⟩ := rows.pairs cipher cipherIn row.classicAlgorithm (rows.listed row inside).2
  have own : (⟨cipher, row.classicAlgorithm, "", first⟩ : ClassicRow) ∈ currentRun :=
    (List.mem_filter.mp (pair ▸ List.mem_cons_self)).1
  refine List.all_eq_true.mp present _ (List.mem_map.mpr ⟨_, List.mem_filter.mpr ⟨own, ?_⟩, rfl⟩)
  exact Text.containsRefl cipher

theorem combinedCurvesText (text : ∀ run ∈ runs numRuns, csv.isText ((table run).map ClassicRow.ciphersuite) = true ∧
    csv.isText ((table run).map ClassicRow.classicAlgorithm) = true) :
    combinedCurves csv cipher alg numRuns table = some (curveFrames cipher alg numRuns table) := by
  have curves : ((runs numRuns).mapM fun run => (curveDf csv cipher alg (table run)).map fun curve => (run, curve)) =
      some ((runs numRuns).map fun run => (run, curveRows cipher alg (table run))) := by
    refine (Appending.mapExact _).mpr fun run listed => ?_
    rw [curveDfText (text run listed).1 (text run listed).2]
    rfl
  rw [combinedCurves, curves, Option.map_some, List.foldl_map]
  rfl

theorem genClassicText (text : ∀ run ∈ runs numRuns, csv.isText ((table run).map ClassicRow.ciphersuite) = true ∧
    csv.isText ((table run).map ClassicRow.classicAlgorithm) = true) :
    genClassicAvgs csv ciphers classicAlgs numRuns table = some (ciphers.flatMap fun cipher => classicAlgs.flatMap fun alg =>
      averagePair cipher alg (curveFrames cipher alg numRuns table)) := by
  refine Appending.mapFlatten fun cipher _ => Appending.mapFlatten fun alg _ => ?_
  rw [combinedCurvesText text, Option.map_some]

theorem genClassicSome (rows : ∀ run, TwoRowsEach ciphers classicAlgs (table run)) (someCipher : ciphers ≠ [])
    (someAlg : classicAlgs ≠ []) {averages : List ClassicAvgRow}
    (done : genClassicAvgs csv ciphers classicAlgs numRuns table = some averages) :
    ∀ run ∈ runs numRuns, csv.isText ((table run).map ClassicRow.ciphersuite) = true ∧
      csv.isText ((table run).map ClassicRow.classicAlgorithm) = true := by
  intro run listed
  obtain ⟨cipher, cipherIn⟩ := List.exists_mem_of_ne_nil ciphers someCipher
  obtain ⟨alg, algIn⟩ := List.exists_mem_of_ne_nil classicAlgs someAlg
  obtain ⟨ofCiphers, done, -⟩ := Option.map_eq_some_iff.mp done
  obtain ⟨ofCipher, given⟩ := Appending.mapGiven done cipherIn
  obtain ⟨ofAlgs, given, -⟩ := Option.map_eq_some_iff.mp given
  obtain ⟨pair, given⟩ := Appending.mapGiven given algIn
  obtain ⟨frames, given, -⟩ := Option.map_eq_some_iff.mp given
  obtain ⟨curves, given, -⟩ := Option.map_eq_some_iff.mp given
  obtain ⟨part, given⟩ := Appending.mapGiven given listed
  obtain ⟨curve, given, -⟩ := Option.map_eq_some_iff.mp given
  exact curveDfSome (rows run) cipherIn given

end Read

section Combined

variable (cipher alg : String) (table : Nat → List ClassicRow)

theorem combinedSucc (numRuns : Nat) : curveFrames cipher alg (numRuns + 1) table =
    curveStep (curveFrames cipher alg numRuns table) (numRuns + 1) (curveRows cipher alg (table (numRuns + 1))) := by
  rw [curveFrames, runsSucc, List.foldl_append]
  rfl

theorem combinedFirst (numRuns : Nat) : (curveFrames cipher alg numRuns table).first =
    (runs numRuns).flatMap fun run => (curveRows cipher alg (table run)).take 1 := by
  induction numRuns with
  | zero => rfl
  | succ numRuns ih =>
    rw [combinedSucc, runsSucc, List.flatMap_append, ← ih, List.flatMap_singleton, curveStep]
    cases numRuns with
    | zero => rfl
    | succ numRuns => rw [if_neg (by omega)]

theorem combinedReused (numRuns : Nat) : (curveFrames cipher alg (numRuns + 2) table).reused =
    (curveFrames cipher alg (numRuns + 2) table).first ++ ((curveRows cipher alg (table (numRuns + 2))).drop 1).take 1 := by
  rw [combinedSucc, curveStep, if_neg (by omega)]

end Combined

section Own

variable {ciphers classicAlgs : List String}

theorem curveOwn (separateCiphers : Separate ciphers) (separateAlgs : Separate classicAlgs) {currentRun : List ClassicRow}
    (rows : TwoRowsEach ciphers classicAlgs currentRun) {cipher alg : String} (cipherIn : cipher ∈ ciphers)
    (algIn : alg ∈ classicAlgs) : (curveRows cipher alg currentRun).take 1 = ownCurve cipher alg "" currentRun ∧
      ((curveRows cipher alg currentRun).drop 1).take 1 = ownCurve cipher alg "*" currentRun := by
  have found : curveRows cipher alg currentRun =
      currentRun.filter fun row => row.ciphersuite = cipher ∧ row.classicAlgorithm = alg := by
    rw [curveRows, List.filter_filter]
    refine List.filter_congr fun row member => ?_
    obtain ⟨cipherListed, algListed⟩ := rows.listed row member
    rw [Bool.eq_iff_iff, Bool.and_eq_true, separateCiphers.found cipherIn cipherListed, separateAlgs.found algIn algListed,
      decide_eq_true_eq, and_comm]
  have own : ∀ mark, ownCurve cipher alg mark currentRun =
      (currentRun.filter fun row => row.ciphersuite = cipher ∧ row.classicAlgorithm = alg).filter
        fun row => row.reusedSessionId = mark := by
    intro mark
    rw [List.filter_filter]
    refine List.filter_congr fun row _ => ?_
    rw [Bool.decide_and, Bool.and_comm]
  obtain ⟨first, reused, pair⟩ := rows.pairs cipher cipherIn alg algIn
  rw [found, own, own, pair]
  exact ⟨rfl, rfl⟩

variable {table : Nat → List ClassicRow} {cipher alg : String}

theorem firstExact (separateCiphers : Separate ciphers) (separateAlgs : Separate classicAlgs)
    (rows : ∀ run, TwoRowsEach ciphers classicAlgs (table run)) (cipherIn : cipher ∈ ciphers) (algIn : alg ∈ classicAlgs)
    (numRuns : Nat) : (curveFrames cipher alg numRuns table).first = ownCurves cipher alg "" numRuns table := by
  rw [combinedFirst, ownCurves]
  exact List.flatMap_congr fun run _ => (curveOwn separateCiphers separateAlgs (rows run) cipherIn algIn).1

theorem reusedExact (separateCiphers : Separate ciphers) (separateAlgs : Separate classicAlgs)
    (rows : ∀ run, TwoRowsEach ciphers classicAlgs (table run)) (cipherIn : cipher ∈ ciphers) (algIn : alg ∈ classicAlgs)
    {numRuns : Nat} (few : numRuns ≤ 1) :
    (curveFrames cipher alg numRuns table).reused = ownCurves cipher alg "*" numRuns table := by
  match numRuns, few with
  | 0, _ => rfl
  | 1, _ =>
    have one := (curveOwn separateCiphers separateAlgs (rows 1) cipherIn algIn).2
    change _ = ownCurve cipher alg "*" (table 1) ++ []
    rw [← one, List.append_nil]
    rfl

theorem classicExactOf {csv : ReadCsv} (separateCiphers : Separate ciphers) (separateAlgs : Separate classicAlgs)
    (rows : ∀ run, TwoRowsEach ciphers classicAlgs (table run)) {numRuns : Nat} (few : numRuns ≤ 1)
    (text : ∀ run ∈ runs numRuns, csv.isText ((table run).map ClassicRow.ciphersuite) = true ∧
      csv.isText ((table run).map ClassicRow.classicAlgorithm) = true) :
    genClassicAvgs csv ciphers classicAlgs numRuns table = some (ownClassicAvgs ciphers classicAlgs numRuns table) := by
  rw [genClassicText text]
  congr 1
  refine List.flatMap_congr fun cipher cipherIn => List.flatMap_congr fun alg algIn => ?_
  unfold averagePair
  rw [firstExact separateCiphers separateAlgs rows cipherIn algIn,
    reusedExact separateCiphers separateAlgs rows cipherIn algIn few]

def markedPair (cipher alg : String) : List ClassicRow :=
  [⟨cipher, alg, "", fun _ => some 1⟩, ⟨cipher, alg, "*", fun _ => some 0⟩]

def markedRun (ciphers classicAlgs : List String) : List ClassicRow :=
  ciphers.dedup.flatMap fun cipher => classicAlgs.dedup.flatMap fun alg => markedPair cipher alg

theorem markedTwoRowsEach (ciphers classicAlgs : List String) :
    TwoRowsEach ciphers classicAlgs (markedRun ciphers classicAlgs) := by
  constructor
  · intro row member
    obtain ⟨cipher, cipherIn, member⟩ := List.mem_flatMap.mp member
    obtain ⟨alg, algIn, member⟩ := List.mem_flatMap.mp member
    rcases List.mem_pair.mp member with rfl | rfl <;> exact ⟨List.mem_dedup.mp cipherIn, List.mem_dedup.mp algIn⟩
  · intro cipher cipherIn alg algIn
    refine ⟨fun _ => some 1, fun _ => some 0, ?_⟩
    have pair : ∀ other curve, (markedPair other curve).filter (fun row => row.ciphersuite = cipher ∧ row.classicAlgorithm = alg) =
        if other = cipher then (if curve = alg then markedPair cipher alg else []) else [] := by
      intro other curve
      split
      · next same =>
        split
        · next same' =>
          rw [same, same']
          exact List.filter_eq_self.mpr fun row member => by
            rcases List.mem_pair.mp member with rfl | rfl <;> exact decide_eq_true ⟨rfl, rfl⟩
        · next differ =>
          refine List.filter_eq_nil_iff.mpr fun row member => ?_
          rcases List.mem_pair.mp member with rfl | rfl <;> exact fun both => differ (of_decide_eq_true both).2
      · next differ =>
        refine List.filter_eq_nil_iff.mpr fun row member => ?_
        rcases List.mem_pair.mp member with rfl | rfl <;> exact fun both => differ (of_decide_eq_true both).1
    have each : ∀ other, ((classicAlgs.dedup.flatMap fun curve => markedPair other curve).filter
        fun row => row.ciphersuite = cipher ∧ row.classicAlgorithm = alg) =
          if other = cipher then markedPair cipher alg else [] := by
      intro other
      rw [List.filter_flatMap]
      simp only [pair]
      split
      · exact flatMapOne (fun curve => markedPair cipher curve) (List.nodup_dedup _) (List.mem_dedup.mpr algIn)
      · exact List.flatMap_eq_nil_iff.mpr fun _ _ => rfl
    rw [markedRun, List.filter_flatMap]
    simp only [each]
    exact flatMapOne (fun cipher => markedPair cipher alg) (List.nodup_dedup _) (List.mem_dedup.mpr cipherIn)

theorem markedMark {row : ClassicRow} (member : row ∈ markedRun ciphers classicAlgs) (column : TlsColumn) :
    row.cells column = some (if row.reusedSessionId = "*" then 0 else 1) := by
  obtain ⟨cipher, -, member⟩ := List.mem_flatMap.mp member
  obtain ⟨alg, -, member⟩ := List.mem_flatMap.mp member
  rcases List.mem_pair.mp member with rfl | rfl <;> rfl

theorem markedOwn (cipherIn : cipher ∈ ciphers) (algIn : alg ∈ classicAlgs) {row : ClassicRow}
    (member : row ∈ markedPair cipher alg) {numRuns : Nat} (some_ : 0 < numRuns) :
    row ∈ ownCurves cipher alg row.reusedSessionId numRuns fun _ => markedRun ciphers classicAlgs := by
  refine List.mem_flatMap.mpr ⟨1, runsMember.mpr ⟨Nat.le_refl _, some_⟩, List.mem_filter.mpr ⟨?_, ?_⟩⟩
  · exact List.mem_flatMap.mpr ⟨cipher, List.mem_dedup.mpr cipherIn,
      List.mem_flatMap.mpr ⟨alg, List.mem_dedup.mpr algIn, member⟩⟩
  · rcases List.mem_pair.mp member with rfl | rfl <;> exact decide_eq_true ⟨⟨rfl, rfl⟩, rfl⟩

theorem reusedWrong {csv : ReadCsv} (separateCiphers : Separate ciphers) (separateAlgs : Separate classicAlgs)
    (cipherIn : cipher ∈ ciphers) (algIn : alg ∈ classicAlgs) {numRuns : Nat} (several : 1 < numRuns) :
    genClassicAvgs csv ciphers classicAlgs numRuns (fun _ => markedRun ciphers classicAlgs) ≠
      some (ownClassicAvgs ciphers classicAlgs numRuns fun _ => markedRun ciphers classicAlgs) := by
  intro done
  have text := genClassicSome (fun _ => markedTwoRowsEach ciphers classicAlgs) (List.ne_nil_of_mem cipherIn)
    (List.ne_nil_of_mem algIn) done
  rw [genClassicText text] at done
  have same := Option.some.inj done
  have pairs := Appending.flatMapEach (by
    intro cipher
    rw [List.length_flatMap, List.length_flatMap]
    rfl) same cipherIn
  have rows := Appending.flatMapEach (by
    intro alg
    rfl) pairs algIn
  have metrics := (ClassicAvgRow.mk.inj (List.cons.inj (List.cons.inj rows).2).1).2.2.2
  have means := List.map_inj_left.mp metrics .userTime (by decide)
  obtain ⟨later, rfl⟩ := Nat.exists_eq_add_of_le' several
  change mean ((curveFrames cipher alg (later + 2) _).reused.filterMap _) = _ at means
  have ownZero : mean ((ownCurves cipher alg "*" (later + 2) fun _ => markedRun ciphers classicAlgs).filterMap
      fun row => row.cells .userTime) = some 0 := by
    refine Mean.ofZeroCells (markedOwn cipherIn algIn (List.mem_cons_of_mem _ List.mem_cons_self) (Nat.succ_pos _))
      fun row member => ?_
    obtain ⟨run, -, member⟩ := List.mem_flatMap.mp member
    obtain ⟨member, own⟩ := List.mem_filter.mp member
    rw [markedMark member, if_pos (of_decide_eq_true own).2]
  have firsts := firstExact separateCiphers separateAlgs (fun _ => markedTwoRowsEach ciphers classicAlgs) cipherIn algIn
    (later + 2)
  have stray := @markedOwn ciphers classicAlgs cipher alg cipherIn algIn _ List.mem_cons_self (later + 2) (Nat.succ_pos _)
  rw [combinedReused, firsts] at means
  refine Mean.ofMarkedCells (fun row => row.reusedSessionId = "*") (fun row member => ?_) (List.mem_append_left _ stray)
    (fun same => nomatch (same : "" = "*")) (means.trans ownZero)
  have inside : row ∈ markedRun ciphers classicAlgs := by
    cases List.mem_append.mp member with
    | inl early =>
      obtain ⟨run, -, early⟩ := List.mem_flatMap.mp early
      exact (List.mem_filter.mp early).1
    | inr reused =>
      have curve := List.mem_of_mem_drop (List.mem_of_mem_take reused)
      exact (List.mem_filter.mp (List.mem_filter.mp curve).1).1
  exact markedMark inside _

end Own

theorem classicAverages (csv : ReadCsv) {ciphers classicAlgs : List String} (separateCiphers : Separate ciphers)
    (separateAlgs : Separate classicAlgs) (numRuns : Nat) :
    (∀ table, (∀ run, TwoRowsEach ciphers classicAlgs (table run)) →
      genClassicAvgs csv ciphers classicAlgs numRuns table = some (ownClassicAvgs ciphers classicAlgs numRuns table) ∧
      ∀ number : Nat → Nat, ((runs numRuns).map number).Perm (runs numRuns) →
        genClassicAvgs csv ciphers classicAlgs numRuns (fun run => table (number run)) =
          genClassicAvgs csv ciphers classicAlgs numRuns table) ↔
      numRuns = 0 ∨ ciphers = [] ∨ classicAlgs = [] ∨ (numRuns = 1 ∧ TextPairs csv ciphers classicAlgs) := by
  constructor
  · intro exact_
    by_contra bare
    simp only [not_or] at bare
    obtain ⟨some_, someCipher, someAlg, bare⟩ := bare
    obtain ⟨cipher, cipherIn⟩ := List.exists_mem_of_ne_nil ciphers someCipher
    obtain ⟨alg, algIn⟩ := List.exists_mem_of_ne_nil classicAlgs someAlg
    by_cases one : numRuns = 1
    · refine bare ⟨one, fun currentRun rows => ?_⟩
      have done := (exact_ (fun _ => currentRun) fun _ => rows).1
      exact genClassicSome (fun _ => rows) someCipher someAlg done 1
        (runsMember.mpr ⟨Nat.le_refl _, Nat.pos_of_ne_zero some_⟩)
    · exact reusedWrong separateCiphers separateAlgs cipherIn algIn (by omega)
        (exact_ _ fun _ => markedTwoRowsEach ciphers classicAlgs).1
  · intro either
    have right : ∀ table, (∀ run, TwoRowsEach ciphers classicAlgs (table run)) →
        genClassicAvgs csv ciphers classicAlgs numRuns table = some (ownClassicAvgs ciphers classicAlgs numRuns table) := by
      intro table rows
      rcases either with none_ | none_ | none_ | ⟨one, text⟩
      · refine classicExactOf separateCiphers separateAlgs rows (by omega) fun run listed => ?_
        have bounds := runsMember.mp listed
        omega
      · rw [none_]
        rfl
      · rw [none_]
        exact Appending.mapFlatten fun _ _ => rfl
      · exact classicExactOf separateCiphers separateAlgs rows (Nat.le_of_eq one) fun run _ => text _ (rows run)
    refine fun table rows => ⟨right table rows, fun number renumbers => ?_⟩
    rw [right _ fun run => rows (number run), right table rows, ownAvgsRenumbered ciphers classicAlgs table renumbers]

def gcmCiphers : List String := ["TLS_AES_128_GCM_SHA256", "TLS_AES_256_GCM_SHA384"]

def classicPair : List String := ["RSA_2048", "prime256v1"]

theorem gcmSeparate : Separate gcmCiphers := by
  unfold Separate
  decide

theorem classicPairSeparate : Separate classicPair := by
  unfold Separate
  decide

theorem classicAveragesTwo :
    (∀ table, (∀ run, TwoRowsEach gcmCiphers classicPair (table run)) →
      genClassicAvgs lettered gcmCiphers classicPair 2 table = some (ownClassicAvgs gcmCiphers classicPair 2 table) ∧
      ∀ number : Nat → Nat, ((runs 2).map number).Perm (runs 2) →
        genClassicAvgs lettered gcmCiphers classicPair 2 (fun run => table (number run)) =
          genClassicAvgs lettered gcmCiphers classicPair 2 table) ↔
      2 = 0 ∨ gcmCiphers = [] ∨ classicPair = [] ∨ (2 = 1 ∧ TextPairs lettered gcmCiphers classicPair) :=
  classicAverages lettered gcmSeparate classicPairSeparate 2

theorem secondRunMixed : ¬ ∀ ciphers classicAlgs numRuns table, Separate ciphers → Separate classicAlgs →
    (∀ run, TwoRowsEach ciphers classicAlgs (table run)) →
      genClassicAvgs lettered ciphers classicAlgs numRuns table = some (ownClassicAvgs ciphers classicAlgs numRuns table) := by
  intro exact_
  exact reusedWrong gcmSeparate classicPairSeparate List.mem_cons_self List.mem_cons_self (by decide)
    (exact_ _ _ 2 _ gcmSeparate classicPairSeparate fun _ => markedTwoRowsEach _ _)

end Armor.Results
