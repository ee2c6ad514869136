import Armor.Lib.Appending
import Armor.Lib.Text
import Armor.Results.Pandas

/-! `tls_performance_data_parse.py`: the metrics of one `s_time` output, and the base results of one
run of the PQC, hybrid and classic handshake tests. A file is the list of its lines, `none` where
it cannot be opened. -/
namespace Armor.Results
open Text (contains split)

abbrev Row := List String

def blanks : Row := ["", "", "", "", ""]

def isUserLine (line : String) : Bool := contains line "connections" && contains line "user"
def isRealLine (line : String) : Bool := contains line "connections" && contains line "real"

def appendUserMetrics (currentRow : Row) (line : String) : Row × Bool :=
  match split line with
  | [] => (currentRow, false)
  | connections :: _ :: _ :: time :: perSecond :: _ =>
    (currentRow ++ [connections, String.ofList time.toList.dropLast.dropLast, perSecond], true)
  | [connections, _, _, time] => (currentRow ++ [connections, String.ofList time.toList.dropLast.dropLast], false)
  | connections :: _ => (currentRow ++ [connections], false)

def appendRealMetrics (currentRow : Row) (line : String) : Row × Bool :=
  match split line with
  | [] => (currentRow, false)
  | connections :: _ :: _ :: time :: _ => (currentRow ++ [connections, time], true)
  | connections :: _ => (currentRow ++ [connections], false)

def scanMetrics (getReuseMetrics : Bool) : Bool → Row → List String → Row × Bool
  | _, currentRow, [] => (currentRow, true)
  | sessionMetricsFlag, currentRow, line :: rest =>
    let sessionMetricsFlag := sessionMetricsFlag || contains line "reuse"
    if isUserLine line then
      if sessionMetricsFlag = getReuseMetrics then
        let appended := appendUserMetrics currentRow line
        if appended.2 then scanMetrics getReuseMetrics sessionMetricsFlag appended.1 rest else appended
      else scanMetrics getReuseMetrics sessionMetricsFlag currentRow rest
    else if isRealLine line then
      if sessionMetricsFlag = getReuseMetrics then
        let appended := appendRealMetrics currentRow line
        -- only the first use breaks out of the loop
        if appended.2 && getReuseMetrics then scanMetrics getReuseMetrics sessionMetricsFlag appended.1 rest
        else appended
      else scanMetrics getReuseMetrics sessionMetricsFlag currentRow rest
    else scanMetrics getReuseMetrics sessionMetricsFlag currentRow rest

def getMetrics (currentRow : Row) (file : Option (List String)) (getReuseMetrics : Bool) : Row :=
  match file with
  | none => currentRow ++ blanks
  | some lines =>
    let scanned := scanMetrics getReuseMetrics false currentRow lines
    if scanned.2 then scanned.1 else scanned.1 ++ blanks

inductive ParseError where
  | directoryNotFound
  | columnsPassed (columns passed : Nat)
  deriving DecidableEq, Repr

def pqcBasedHeaders : Row :=
  ["Signing Algorithm", "KEM Algorithm", "Reused Session ID", "Connections in User Time", "User Time (s)",
    "Connections Per User Second", "Connections in Real Time", "Real Time (s)"]

def classicHeaders : Row :=
  ["Ciphersuite", "Classic Algorithm", "Reused Session ID", "Connections in User Time", "User Time (s)",
    "Connections Per User Second", "Connections in Real Time", "Real Time (s)"]

section Frames

variable (pd : DataFrames)

def concatRow (headers : Row) (frame : List Row) (row : Row) : Except ParseError (List Row) :=
  match pd.dataFrame headers row with
  | .ok newRowDf => .ok (frame ++ newRowDf)
  | .error mismatch => .error (.columnsPassed mismatch.columns mismatch.passed)

def concatPair (headers : Row) (frame : List Row) (outer inner : String) (file : Option (List String)) :
    Except ParseError (List Row) := do
  let frame ← concatRow pd headers frame (outer :: getMetrics [inner, ""] file false)
  concatRow pd headers frame (outer :: getMetrics [inner, "*"] file true)

def baseRows (headers : Row) (outers inners : List String) (file : String → String → Option (List String)) :
    Except ParseError (List Row) :=
  outers.foldlM (fun frame outer =>
    inners.foldlM (fun frame inner => concatPair pd headers frame outer inner (file outer inner)) frame) []

inductive TypePrefix where
  | pqc
  | hybrid
  deriving DecidableEq, Repr

def TypePrefix.text : TypePrefix → String
  | .pqc => "pqc"
  | .hybrid => "hybrid"

abbrev UpResults := Option (String → Option (List String))

def openFile (upResults : UpResults) (name : String) : Option (List String) := upResults.bind fun files => files name

def handshakeFile (currentRun : Nat) (sig kem : String) : String :=
  "tls_handshake_" ++ currentRun.repr ++ "_" ++ sig ++ "_" ++ kem ++ ".txt"

def classicFile (currentRun : Nat) (cipher alg : String) : String :=
  "tls_handshake_classic_" ++ currentRun.repr ++ "_" ++ cipher ++ "_" ++ alg ++ ".txt"

def pqcBasedPreProcessing (currentRun : Nat) (typePrefix : TypePrefix) (sigAlgs kemAlgs : List String)
    (upResults : UpResults) : Except ParseError (String × List Row) := do
  -- only the first run lists the directory
  if currentRun = 1 ∧ upResults.isNone then throw .directoryNotFound
  let rows ← baseRows pd pqcBasedHeaders sigAlgs kemAlgs fun sig kem => openFile upResults (handshakeFile currentRun sig kem)
  pure (typePrefix.text ++ "_base_results_run_" ++ currentRun.repr ++ ".csv", rows)

def classicBasedProcessing (currentRun : Nat) (ciphers classicAlgs : List String) (upResults : UpResults) :
    Except ParseError (String × List Row) := do
  let rows ← baseRows pd classicHeaders ciphers classicAlgs fun cipher alg =>
    openFile upResults (classicFile currentRun cipher alg)
  pure ("classic_results_run_" ++ currentRun.repr ++ ".csv", rows)

end Frames

def phaseLines (lines : List String) (reuse : Bool) : List String :=
  if reuse then lines.dropWhile fun line => !contains line "reuse" else lines.takeWhile fun line => !contains line "reuse"

def metricLines (lines : List String) (reuse : Bool) : List String :=
  (phaseLines lines reuse).filter fun line => isUserLine line || isRealLine line

def phaseMetrics (lines : List String) (reuse : Bool) : Option Row :=
  match metricLines lines reuse with
  | user :: real :: _ =>
    if isUserLine user && !isUserLine real then
      match split user, split real with
      | connections :: _ :: _ :: time :: perSecond :: _, realConnections :: _ :: _ :: realTime :: _ =>
        some [connections, String.ofList time.toList.dropLast.dropLast, perSecond, realConnections, realTime]
      | _, _ => none
    else none
  | _ => none

def metricCells (file : Option (List String)) (reuse : Bool) : Row :=
  (file.bind fun lines => phaseMetrics lines reuse).getD blanks

def pairRows (outer inner : String) (file : Option (List String)) : List Row :=
  [outer :: inner :: "" :: metricCells file false, outer :: inner :: "*" :: metricCells file true]

def faithfulRows (outers inners : List String) (file : String → String → Option (List String)) : List Row :=
  outers.flatMap fun outer => inners.flatMap fun inner => pairRows outer inner (file outer inner)

/-- A file that cannot be opened, or holds the metrics of both phases, those of the reuse once. -/
def Complete (file : Option (List String)) : Prop :=
  ∀ lines, file = some lines → (phaseMetrics lines false).isSome = true ∧ (phaseMetrics lines true).isSome = true ∧
    (metricLines lines true).length = 2

def consume (reuse : Bool) (currentRow : Row) : List String → Row × Bool
  | [] => (currentRow, true)
  | line :: rest =>
    if isUserLine line then
      let appended := appendUserMetrics currentRow line
      if appended.2 then consume reuse appended.1 rest else appended
    else
      let appended := appendRealMetrics currentRow line
      if appended.2 && reuse then consume reuse appended.1 rest else appended

variable {lines : List String} {reuse : Bool} {currentRow : Row}

theorem scanPassed (lines : List String) (currentRow : Row) :
    scanMetrics false true currentRow lines = (currentRow, true) := by
  induction lines with
  | nil => rfl
  | cons line rest ih =>
    rw [scanMetrics, Bool.true_or]
    simp only [Bool.true_eq_false, if_false, ih, ite_self]

theorem scanReused (lines : List String) (currentRow : Row) : scanMetrics true true currentRow lines =
    consume true currentRow (lines.filter fun line => isUserLine line || isRealLine line) := by
  induction lines generalizing currentRow with
  | nil => rfl
  | cons line rest ih =>
    rw [scanMetrics, Bool.true_or]
    cases user : isUserLine line with
    | true =>
      rw [List.filter_cons_of_pos (by rw [user, Bool.true_or]), consume, user]
      simp only [if_true, ih]
    | false =>
      cases real : isRealLine line with
      | true =>
        rw [List.filter_cons_of_pos (by rw [real, Bool.or_true]), consume, user]
        simp only [if_true, ih]
      | false =>
        rw [List.filter_cons_of_neg (by rw [user, real]; decide)]
        simp only [Bool.false_eq_true, if_false, ih]

theorem scanConsumes (reuse : Bool) (lines : List String) (currentRow : Row) :
    scanMetrics reuse false currentRow lines = consume reuse currentRow (metricLines lines reuse) := by
  induction lines generalizing currentRow with
  | nil => cases reuse <;> rfl
  | cons line rest ih =>
    cases turns : contains line "reuse" with
    | true =>
      have flagged : scanMetrics reuse false currentRow (line :: rest) = scanMetrics reuse true currentRow (line :: rest) := by
        rw [scanMetrics, scanMetrics, turns]
        rfl
      rw [flagged]
      cases reuse with
      | false =>
        have none_ : metricLines (line :: rest) false = [] := by
          simp only [metricLines, phaseLines, Bool.false_eq_true, if_false, List.takeWhile_cons, turns, Bool.not_true,
            List.filter_nil]
        rw [scanPassed, none_, consume]
      | true =>
        have all : metricLines (line :: rest) true =
            (line :: rest).filter fun line => isUserLine line || isRealLine line := by
          simp only [metricLines, phaseLines, if_true, List.dropWhile_cons, turns, Bool.not_true, Bool.false_eq_true,
            if_false]
        rw [scanReused, all]
    | false =>
      rw [scanMetrics, turns, Bool.or_false]
      cases reuse with
      | true =>
        have later : metricLines (line :: rest) true = metricLines rest true := by
          simp only [metricLines, phaseLines, if_true, List.dropWhile_cons, turns, Bool.not_false]
        rw [later]
        simp only [Bool.false_eq_true, if_false, ih, ite_self]
      | false =>
        have here : metricLines (line :: rest) false = if isUserLine line || isRealLine line then
            line :: metricLines rest false else metricLines rest false := by
          simp only [metricLines, phaseLines, Bool.false_eq_true, if_false, List.takeWhile_cons, turns, Bool.not_false,
            if_true, List.filter_cons]
        cases user : isUserLine line with
        | true =>
          rw [user, Bool.true_or, if_pos rfl] at here
          rw [here, consume, user]
          simp only [if_true, ih]
        | false =>
          cases real : isRealLine line with
          | true =>
            rw [real, Bool.or_true, if_pos rfl] at here
            rw [here, consume, user]
            simp only [if_true, ih]
          | false =>
            rw [user, real, Bool.or_false, if_neg Bool.false_ne_true] at here
            rw [here]
            simp only [Bool.false_eq_true, if_false, ih]

theorem connectionsDark : ∃ c ∈ "connections".toList, Text.isSpace c = false := ⟨'c', List.mem_cons_self, rfl⟩

theorem userAppends (currentRow : Row) (line : String) : ∃ cells, (appendUserMetrics currentRow line).1 = currentRow ++ cells ∧
    (contains line "connections" = true → ∃ cell more, cell ≠ "" ∧ cells = cell :: more) := by
  unfold appendUserMetrics
  cases words : split line with
  | nil =>
    refine ⟨[], (List.append_nil _).symm, fun found => ?_⟩
    exact absurd words (Text.splitOfContains found connectionsDark)
  | cons cell more =>
    have dark : cell ≠ "" := Text.splitNonempty (words ▸ List.mem_cons_self)
    rcases more with _ | ⟨a, _ | ⟨b, _ | ⟨time, _ | ⟨perSecond, more⟩⟩⟩⟩ <;>
      exact ⟨_, rfl, fun _ => ⟨cell, _, dark, rfl⟩⟩

theorem realAppends (currentRow : Row) (line : String) : ∃ cells, (appendRealMetrics currentRow line).1 = currentRow ++ cells ∧
    (contains line "connections" = true → ∃ cell more, cell ≠ "" ∧ cells = cell :: more) := by
  unfold appendRealMetrics
  cases words : split line with
  | nil =>
    refine ⟨[], (List.append_nil _).symm, fun found => ?_⟩
    exact absurd words (Text.splitOfContains found connectionsDark)
  | cons cell more =>
    have dark : cell ≠ "" := Text.splitNonempty (words ▸ List.mem_cons_self)
    rcases more with _ | ⟨a, _ | ⟨b, _ | ⟨time, more⟩⟩⟩ <;> exact ⟨_, rfl, fun _ => ⟨cell, _, dark, rfl⟩⟩

theorem consumeAppends (reuse : Bool) (currentRow : Row) (metrics : List String) :
    ∃ cells, (consume reuse currentRow metrics).1 = currentRow ++ cells := by
  induction metrics generalizing currentRow with
  | nil => exact ⟨[], (List.append_nil _).symm⟩
  | cons line rest ih =>
    have chain : ∀ {middle : Row}, (∃ cells, middle = currentRow ++ cells) →
        ∃ cells, (consume reuse middle rest).1 = currentRow ++ cells := by
      rintro middle ⟨cells, rfl⟩
      obtain ⟨more, later⟩ := ih (currentRow ++ cells)
      exact ⟨cells ++ more, later.trans (List.append_assoc _ _ _)⟩
    obtain ⟨userCells, user, -⟩ := userAppends currentRow line
    obtain ⟨realCells, real, -⟩ := realAppends currentRow line
    unfold consume
    dsimp only
    split
    · split
      · exact chain ⟨userCells, user⟩
      · exact ⟨userCells, user⟩
    · split
      · exact chain ⟨realCells, real⟩
      · exact ⟨realCells, real⟩

theorem consumeDark (reuse : Bool) (currentRow : Row) {line : String} (metric : contains line "connections" = true)
    (rest : List String) :
    ∃ cell more, cell ≠ "" ∧ (consume reuse currentRow (line :: rest)).1 = currentRow ++ cell :: more := by
  have chain : ∀ {middle : Row}, (∃ cell more, cell ≠ "" ∧ middle = currentRow ++ cell :: more) →
      ∃ cell more, cell ≠ "" ∧ (consume reuse middle rest).1 = currentRow ++ cell :: more := by
    rintro middle ⟨cell, more, dark, rfl⟩
    obtain ⟨later, same⟩ := consumeAppends reuse (currentRow ++ cell :: more) rest
    exact ⟨cell, more ++ later, dark, same.trans (List.append_assoc _ _ _)⟩
  have user : ∃ cell more, cell ≠ "" ∧ (appendUserMetrics currentRow line).1 = currentRow ++ cell :: more := by
    obtain ⟨cells, same, first⟩ := userAppends currentRow line
    obtain ⟨cell, more, dark, rfl⟩ := first metric
    exact ⟨cell, more, dark, same⟩
  have real : ∃ cell more, cell ≠ "" ∧ (appendRealMetrics currentRow line).1 = currentRow ++ cell :: more := by
    obtain ⟨cells, same, first⟩ := realAppends currentRow line
    obtain ⟨cell, more, dark, rfl⟩ := first metric
    exact ⟨cell, more, dark, same⟩
  unfold consume
  dsimp only
  split
  · split
    · exact chain user
    · exact user
  · split
    · exact chain real
    · exact real

theorem metricLineContains {lines : List String} {line : String} {rest : List String}
    (begins : metricLines lines reuse = line :: rest) : ∀ l ∈ line :: rest, contains l "connections" = true := by
  intro l member
  rw [← begins] at member
  have metric := (List.mem_filter.mp member).2
  simp only [isUserLine, isRealLine, Bool.or_eq_true, Bool.and_eq_true] at metric
  cases metric with
  | inl user => exact user.1
  | inr real => exact real.1

theorem phaseBegins {metrics : Row} (held : phaseMetrics lines reuse = some metrics) :
    ∃ user real rest, metricLines lines reuse = user :: real :: rest ∧
      ∀ currentRow, consume reuse currentRow (user :: real :: rest) =
        if reuse then consume reuse (currentRow ++ metrics) rest else (currentRow ++ metrics, true) := by
  unfold phaseMetrics at held
  split at held
  · next user real rest begins =>
    split at held
    · next order =>
      split at held
      · next words words' =>
        cases held
        refine ⟨user, real, rest, begins, fun currentRow => ?_⟩
        simp only [Bool.and_eq_true, Bool.not_eq_true'] at order
        simp only [consume, order.1, order.2, appendUserMetrics, appendRealMetrics, words, words', if_true,
          Bool.true_and, Bool.false_eq_true, if_false, List.append_assoc, List.cons_append, List.nil_append]
      · cases held
    · cases held
  · cases held

theorem metricsExact (currentRow : Row) (lines : List String) (reuse : Bool) :
    getMetrics currentRow (some lines) reuse = currentRow ++ metricCells (some lines) reuse ↔
      (phaseMetrics lines reuse).isSome = true ∧ (reuse = true → (metricLines lines reuse).length = 2) := by
  have scanned : getMetrics currentRow (some lines) reuse =
      if (consume reuse currentRow (metricLines lines reuse)).2 then (consume reuse currentRow (metricLines lines reuse)).1
      else (consume reuse currentRow (metricLines lines reuse)).1 ++ blanks := by
    rw [getMetrics, scanConsumes]
  rw [scanned]
  cases held : phaseMetrics lines reuse with
  | none =>
    have cells : metricCells (some lines) reuse = blanks := by
      rw [metricCells, Option.bind_some, held]
      rfl
    rw [cells]
    refine ⟨fun same => ?_, fun both => nomatch both.1⟩
    cases begins : metricLines lines reuse with
    | nil =>
      rw [begins, consume, if_pos rfl] at same
      have lengths := congrArg List.length same
      rw [List.length_append] at lengths
      change currentRow.length = currentRow.length + 5 at lengths
      omega
    | cons line rest =>
      rw [begins] at same
      obtain ⟨cell, more, dark, first⟩ :=
        consumeDark reuse currentRow (metricLineContains begins line List.mem_cons_self) rest
      rw [first] at same
      split at same
      · exact absurd (List.cons.inj (List.append_cancel_left same)).1 dark
      · rw [List.append_assoc] at same
        exact absurd (List.cons.inj (List.append_cancel_left same)).1 dark
  | some metrics =>
    have cells : metricCells (some lines) reuse = metrics := by
      rw [metricCells, Option.bind_some, held]
      rfl
    rw [cells]
    obtain ⟨user, real, rest, begins, consumed⟩ := phaseBegins held
    rw [begins, consumed]
    cases reuse with
    | false =>
      rw [if_neg Bool.false_ne_true, if_pos rfl]
      exact ⟨fun _ => ⟨rfl, nofun⟩, fun _ => rfl⟩
    | true =>
      rw [if_pos rfl]
      cases rest with
      | nil =>
        rw [consume, if_pos rfl]
        exact ⟨fun _ => ⟨rfl, fun _ => rfl⟩, fun _ => rfl⟩
      | cons line rest =>
        refine ⟨fun same => ?_, fun both => nomatch both.2 rfl⟩
        have metric := metricLineContains begins line (List.mem_cons_of_mem _ (List.mem_cons_of_mem _ List.mem_cons_self))
        obtain ⟨cell, more, dark, first⟩ := consumeDark true (currentRow ++ metrics) metric rest
        rw [first] at same
        have lengths := congrArg List.length same
        split at lengths
        · simp only [List.length_append, List.length_cons] at lengths
          omega
        · simp only [List.length_append, List.length_cons] at lengths
          omega

theorem fileExact (first second : Row) (file : Option (List String)) : Complete file ↔
    getMetrics first file false = first ++ metricCells file false ∧
      getMetrics second file true = second ++ metricCells file true := by
  cases file with
  | none => exact ⟨fun _ => ⟨rfl, rfl⟩, fun _ => nofun⟩
  | some lines =>
    rw [metricsExact, metricsExact]
    constructor
    · intro complete
      obtain ⟨first, second, twice⟩ := complete lines rfl
      exact ⟨⟨first, nofun⟩, second, fun _ => twice⟩
    · rintro ⟨first, second⟩ _ ⟨⟩
      exact ⟨first.1, second.1, second.2 rfl⟩

theorem metricCellsLength (file : Option (List String)) (reuse : Bool) : (metricCells file reuse).length = 5 := by
  unfold metricCells
  cases held : file.bind fun lines => phaseMetrics lines reuse with
  | none => rfl
  | some metrics =>
    obtain ⟨lines, -, phase⟩ := Option.bind_eq_some_iff.mp held
    unfold phaseMetrics at phase
    split at phase
    · split at phase
      · split at phase
        · cases phase
          rfl
        · cases phase
      · cases phase
    · cases phase

variable (pd : DataFrames)

theorem concatRowIf (headers : Row) (frame : List Row) (row : Row) : concatRow pd headers frame row =
    if row.length = headers.length then .ok (frame ++ [row]) else .error (.columnsPassed headers.length row.length) := by
  by_cases fits : row.length = headers.length
  · rw [concatRow, pd.dataFrameFits headers row fits, if_pos fits]
  · rw [concatRow, pd.dataFrameMisfits headers row fits, if_neg fits]

theorem concatPairAppends (headers : Row) (frame : List Row) (outer inner : String) (file : Option (List String)) :
    concatPair pd headers frame outer inner file =
      (do
        let rows ← concatPair pd headers [] outer inner file
        pure (frame ++ rows)) := by
  simp only [concatPair, concatRowIf]
  by_cases first : (outer :: getMetrics [inner, ""] file false).length = headers.length
  · by_cases second : (outer :: getMetrics [inner, "*"] file true).length = headers.length
    · rw [if_pos first, if_pos first]
      simp only [bind, Except.bind, if_pos second, pure, Except.pure, List.append_assoc, List.nil_append]
    · rw [if_pos first, if_pos first]
      simp only [bind, Except.bind, if_neg second]
  · rw [if_neg first, if_neg first]
    rfl

variable {pd}

theorem concatPairLength {headers : Row} {outer inner : String} {file : Option (List String)} {rows : List Row}
    (given : concatPair pd headers [] outer inner file = .ok rows) : rows.length = 2 := by
  simp only [concatPair, concatRowIf] at given
  split at given
  · simp only [bind, Except.bind] at given
    split at given
    · cases given
      rfl
    · cases given
  · cases given

theorem concatPairExact {headers : Row} (eight : headers.length = 8) (outer inner : String) (file : Option (List String)) :
    concatPair pd headers [] outer inner file = .ok (pairRows outer inner file) ↔ Complete file := by
  rw [fileExact [inner, ""] [inner, "*"] file]
  have length : ∀ mark reuse, (outer :: inner :: mark :: metricCells file reuse).length = headers.length := by
    intro mark reuse
    rw [List.length_cons, List.length_cons, List.length_cons, metricCellsLength, eight]
  simp only [concatPair, concatRowIf, pairRows]
  constructor
  · intro given
    split at given
    · simp only [bind, Except.bind] at given
      split at given
      · have rows := Except.ok.inj given
        simp only [List.nil_append, List.cons_append, List.cons.injEq] at rows
        exact ⟨rows.1.2, rows.2.1.2⟩
      · cases given
    · cases given
  · rintro ⟨first, second⟩
    rw [first, second]
    simp only [List.cons_append, List.nil_append, length, if_true, bind, Except.bind]

theorem baseRowsExact {headers : Row} (eight : headers.length = 8) (outers inners : List String)
    (file : String → String → Option (List String)) :
    baseRows pd headers outers inners file = .ok (faithfulRows outers inners file) ↔
      ∀ outer ∈ outers, ∀ inner ∈ inners, Complete (file outer inner) := by
  have loop : baseRows pd headers outers inners file = (outers.flatMap fun outer => inners.map fun inner => (outer, inner)).foldlM
      (Appending.append fun pair => concatPair pd headers [] pair.1 pair.2 (file pair.1 pair.2)) [] := by
    rw [baseRows, Appending.nested]
    congr
    funext frame pair
    exact concatPairAppends pd headers frame pair.1 pair.2 (file pair.1 pair.2)
  have rows : faithfulRows outers inners file = [] ++ (outers.flatMap fun outer => inners.map fun inner =>
      (outer, inner)).flatMap fun pair => pairRows pair.1 pair.2 (file pair.1 pair.2) := by
    rw [List.nil_append, List.flatMap_assoc, faithfulRows]
    congr
    funext outer
    rw [List.flatMap_map]
  have exact_ := @Appending.appendExact ParseError (String × String) Row
    (fun pair => concatPair pd headers [] pair.1 pair.2 (file pair.1 pair.2))
    (fun pair => pairRows pair.1 pair.2 (file pair.1 pair.2)) (fun pair rows given => concatPairLength given)
  rw [loop, rows, exact_]
  constructor
  · intro all outer outerIn inner innerIn
    have member : (outer, inner) ∈ outers.flatMap fun outer => inners.map fun inner => (outer, inner) :=
      List.mem_flatMap.mpr ⟨outer, outerIn, List.mem_map.mpr ⟨inner, innerIn, rfl⟩⟩
    exact (concatPairExact eight outer inner _).mp (all (outer, inner) member)
  · intro complete pair member
    obtain ⟨outer, outerIn, member⟩ := List.mem_flatMap.mp member
    obtain ⟨inner, innerIn, rfl⟩ := List.mem_map.mp member
    exact (concatPairExact eight outer inner _).mpr (complete outer outerIn inner innerIn)

theorem pqcHeadersEight : pqcBasedHeaders.length = 8 := rfl

theorem classicHeadersEight : classicHeaders.length = 8 := rfl

theorem handshakeRowsFaithful (pd : DataFrames) (currentRun : Nat) (typePrefix : TypePrefix) (outers inners : List String)
    (upResults : UpResults) :
    (pqcBasedPreProcessing pd currentRun typePrefix outers inners upResults =
        .ok (typePrefix.text ++ "_base_results_run_" ++ currentRun.repr ++ ".csv",
          faithfulRows outers inners fun sig kem => openFile upResults (handshakeFile currentRun sig kem)) ↔
      (currentRun = 1 → upResults.isSome = true) ∧
        ∀ sig ∈ outers, ∀ kem ∈ inners, Complete (openFile upResults (handshakeFile currentRun sig kem))) ∧
    (classicBasedProcessing pd currentRun outers inners upResults =
        .ok ("classic_results_run_" ++ currentRun.repr ++ ".csv",
          faithfulRows outers inners fun cipher alg => openFile upResults (classicFile currentRun cipher alg)) ↔
      ∀ cipher ∈ outers, ∀ alg ∈ inners, Complete (openFile upResults (classicFile currentRun cipher alg))) := by
  constructor
  · rw [← baseRowsExact pqcHeadersEight]
    unfold pqcBasedPreProcessing
    by_cases listed : currentRun = 1 ∧ upResults.isNone = true
    · rw [if_pos listed]
      refine ⟨nofun, fun both => ?_⟩
      have present := both.1 listed.1
      rw [← Option.not_isNone, listed.2] at present
      cases present
    · have present : currentRun = 1 → upResults.isSome = true := by
        intro first
        rw [← Option.not_isNone, Bool.not_eq_true']
        exact eq_false_of_ne_true fun none_ => listed ⟨first, none_⟩
      rw [if_neg listed]
      generalize baseRows pd pqcBasedHeaders outers inners _ = result
      cases result with
      | error e => exact ⟨nofun, fun both => nomatch both.2⟩
      | ok rows =>
        constructor
        · intro same
          cases same
          exact ⟨present, rfl⟩
        · rintro ⟨-, same⟩
          cases same
          rfl
  · rw [← baseRowsExact classicHeadersEight]
    unfold classicBasedProcessing
    generalize baseRows pd classicHeaders outers inners _ = result
    cases result with
    | error e => exact ⟨nofun, nofun⟩
    | ok rows =>
      constructor
      · intro same
        cases same
        rfl
      · intro same
        cases same
        rfl

example : getMetrics ["mlkem512", ""] (some ["3 connections in 0.34s; 8.82 connections/user sec, bytes read 0",
    "3 connections in 6 real seconds, 0 bytes read per connection"]) false =
    ["mlkem512", "", "3", "0.34", "8.82", "3", "6"] := by decide +kernel

def printedOutput : List String :=
  ["3 connections in 0.34s; 8.82 connections/user sec, bytes read 0",
    "3 connections in 6 real seconds, 0 bytes read per connection", "Now timing with session id reuse.",
    "4 connections in 0.50s; 8.00 connections/user sec, bytes read 0",
    "4 connections in 6 real seconds, 0 bytes read per connection"]

theorem printedComplete : Complete (some printedOutput) := by
  rintro lines ⟨⟩
  decide +kernel

def printedResults (name : String) : Option (List String) :=
  if name = handshakeFile 2 "mldsa44" "mlkem512" then some printedOutput else none

theorem printedResultsComplete (name : String) : Complete (printedResults name) := by
  unfold printedResults
  split
  · exact printedComplete
  · exact fun lines missing => nomatch missing

theorem handshakeRowsFaithfulTwo :
    pqcBasedPreProcessing plainFrames 2 .pqc ["mldsa44"] ["mlkem512", "mlkem768"] (some printedResults) =
      .ok ("pqc_base_results_run_2.csv",
        faithfulRows ["mldsa44"] ["mlkem512", "mlkem768"] fun sig kem => printedResults (handshakeFile 2 sig kem)) :=
  (handshakeRowsFaithful plainFrames 2 .pqc ["mldsa44"] ["mlkem512", "mlkem768"] (some printedResults)).1.mpr
    ⟨nofun, fun _ _ _ _ => printedResultsComplete _⟩

def truncatedFile : List String :=
  ["Collecting connection statistics for 5 seconds", "***", "",
    "3 connections in 0.34s; 8.82 connections/user sec, bytes read 0"]

theorem truncatedFileRaises : ¬ ∀ pd currentRun typePrefix outers inners upResults,
    pqcBasedPreProcessing pd currentRun typePrefix outers inners upResults =
      .ok (typePrefix.text ++ "_base_results_run_" ++ currentRun.repr ++ ".csv",
        faithfulRows outers inners fun sig kem => openFile upResults (handshakeFile currentRun sig kem)) := by
  intro faithful
  have raised : pqcBasedPreProcessing plainFrames 1 .pqc ["mldsa44"] ["mlkem512"] (some fun _ => some truncatedFile) =
      .error (.columnsPassed 8 6) := by decide +kernel
  cases raised.symm.trans (faithful plainFrames 1 .pqc ["mldsa44"] ["mlkem512"] (some fun _ => some truncatedFile))

end Armor.Results
