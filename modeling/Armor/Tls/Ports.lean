import Armor.Lib.Numerals
import Armor.Lib.Script
import Armor.Lib.Text
import Armor.Tls.MachineId

/-! `parse_args` of `pqc_tls_performance_test.sh`: the ports it accepts, as shell arithmetic reads them, and
their decimal values, as `nc` and `openssl` read them. -/
namespace Armor.Tls.Ports
open Decimal (isNumber value)
open MachineId (getUserYesNo)
open Numerals (arithmetic leadsZero octalValue decimalValue stripZeros)
open Script (Stop)
open Text (contains startsWith)

inductive Port where
  | serverControl
  | clientControl
  | sServer
  deriving DecidableEq, Repr

def ports : List Port := [.serverControl, .clientControl, .sServer]

def Port.option : Port → String
  | .serverControl => "--server-control-port="
  | .clientControl => "--client-control-port="
  | .sServer => "--s-server-port="

def Port.title : Port → String
  | .serverControl => "server control port"
  | .clientControl => "client control port"
  | .sServer => "s_server port"

def Port.standard : Port → String
  | .serverControl => "25000"
  | .clientControl => "25001"
  | .sServer => "4433"

structure Options where
  port : Port → String
  controlSleepTime : String
  customControlTimeFlag : Bool
  disableControlSleep : Bool
  parseResults : Bool

def standardOptions : Options := ⟨Port.standard, "", false, false, true⟩

def isValidPort (port : String) : Bool :=
  isNumber port && match arithmetic port with
    | some n => 1024 ≤ n && n ≤ 65535
    | none => false

/-- `${1#*=}` of an argument with a `=`. -/
def afterEquals (arg : String) : String := String.ofList ((arg.toList.dropWhile (· ≠ '=')).drop 1)

/-- `^[0-9]+([.][0-9]+)?$`, with the time as a fraction. -/
def sleepTime (time : String) : Option (Nat × Nat) :=
  let whole := time.toList.takeWhile Char.isDigit
  if whole = [] then none
  else match time.toList.dropWhile Char.isDigit with
    | [] => some (decimalValue whole, 1)
    | point :: fraction =>
      if point = '.' ∧ fraction ≠ [] ∧ fraction.all Char.isDigit then
        some (decimalValue (whole ++ fraction), 10 ^ fraction.length)
      else none

abbrev State := Options × List String

def setPort (s : State) (p : Port) (port : String) : Except Stop State :=
  if isValidPort port then .ok ({ s.1 with port := Function.update s.1.port p port }, s.2)
  else .error (.error ("[ERROR] - Invalid " ++ p.title ++ " number: " ++ port))

def setSleepTime (s : State) (time : String) : Except Stop State :=
  if s.1.disableControlSleep then .error (.error
    "[ERROR] - Cannot use the --control-sleep-time flag when the --disable-control-sleep flag has been set")
  else if (sleepTime time).isNone then .error (.error ("[ERROR] - Invalid control sleep time: " ++ time))
  else .ok ({ s.1 with controlSleepTime := time, customControlTimeFlag := true }, s.2)

def disableSleep (s : State) : Except Stop State :=
  if s.1.customControlTimeFlag then .error (.error
    "[ERROR] - Cannot use the --disable-control-sleep flag when the --control-sleep-time flag has been set")
  else .ok ({ s.1 with disableControlSleep := true }, s.2)

/-- The results are parsed where the user is sure that they are not to be. -/
def disableResultParsing (s : State) : Except Stop State :=
  match getUserYesNo s.2 with
  | none => .error .waits
  | some (yes, rest) => .ok ({ s.1 with parseResults := yes }, rest)

def parseArg (s : State) (arg : String) : Except Stop State :=
  match ports.find? fun p => startsWith arg p.option with
  | some p => setPort s p (afterEquals arg)
  | none =>
    if startsWith arg "--control-sleep-time=" then setSleepTime s (afterEquals arg)
    else if arg = "--disable-control-sleep" then disableSleep s
    else if arg = "--disable-result-parsing" then disableResultParsing s
    else .error (.error ("[ERROR] - Unknown option: " ++ arg))

def checkPorts (s : State) : Except Stop State :=
  if s.1.port .serverControl = s.1.port .clientControl ∨ s.1.port .serverControl = s.1.port .sServer ∨
      s.1.port .clientControl = s.1.port .sServer then .error (.error "[ERROR] - Custom TCP ports cannot be the same")
  else .ok s

def confirm (s : State) (accepted : Options) : Except Stop State :=
  match getUserYesNo s.2 with
  | none => .error .waits
  | some (yes, rest) => if yes then .ok (accepted, rest) else .error (.error "\nExiting script...")

/-- The comparisons with 0 and 0.25 of `bc`. -/
def checkSleepTime (s : State) : Except Stop State :=
  match if s.1.customControlTimeFlag then sleepTime s.1.controlSleepTime else none with
  | none => .ok s
  | some (n, d) =>
    if 0 < n ∧ 4 * n < d then confirm s s.1
    else if n = 0 then confirm s { s.1 with disableControlSleep := true }
    else .ok s

def parseArgs (args answers : List String) : Except Stop State :=
  if contains (" ".intercalate args) "--help" then .error .help
  else do
    let s ← args.foldlM parseArg (standardOptions, answers)
    let s ← checkPorts s
    checkSleepTime s

def givenPort (args : List String) (p : Port) : String :=
  ((args.filter (startsWith · p.option)).map afterEquals).getLast?.getD p.standard

structure Usable (o : Options) : Prop where
  range : ∀ p, 1024 ≤ value (o.port p) ∧ value (o.port p) ≤ 65535
  different : ∀ p q, p ≠ q → value (o.port p) ≠ value (o.port q)

def Fits (port : String) : Prop := if leadsZero port then octalValue port.toList ≤ 27485 else value port < 2 ^ 64

instance (port : String) : Decidable (Fits port) := by unfold Fits; infer_instance

section Readings

theorem highestAligned : Numerals.Aligned 27485 65535 := by
  have six := Numerals.alignedZero.digit (e := 6) (by decide)
  have five := (six.digit (e := 5) (by decide)).digit (e := 5) (by decide)
  have digits := (five.digit (e := 3) (by decide)).digit (e := 5) (by decide)
  simpa only [Nat.reduceMul, Nat.reduceAdd] using digits

theorem validRead {port : String} (valid : isValidPort port = true) :
    isNumber port = true ∧
      ∃ n, Numerals.literal port = some n ∧ 1024 ≤ Numerals.wrap n ∧ Numerals.wrap n ≤ 65535 := by
  simp only [isValidPort, arithmetic, Bool.and_eq_true] at valid
  obtain ⟨number, read⟩ := valid
  refine ⟨number, ?_⟩
  cases found : Numerals.literal port with
  | none =>
    rw [found] at read
    cases read
  | some n =>
    simp only [found, Option.map_some, Bool.and_eq_true, decide_eq_true_eq] at read
    exact ⟨n, rfl, read⟩

theorem validFits {port : String} (valid : isValidPort port = true) :
    1024 ≤ value port ∧ value port ≤ 65535 ↔ Fits port := by
  obtain ⟨-, n, found, low, high⟩ := validRead valid
  have decimal : value port = decimalValue port.toList := rfl
  unfold Numerals.literal at found
  unfold Fits
  rw [decimal]
  split at found
  · next leads =>
    rw [if_pos leads]
    split at found
    · next octal =>
      cases found
      have aligned := highestAligned port.toList (List.all_eq_true.mp octal)
      have above := Numerals.octalLeDecimal port.toList
      constructor
      · intro inRange
        omega
      · intro fits
        have read : Numerals.wrap (octalValue port.toList) = octalValue port.toList :=
          Numerals.wrapSmall (by omega) (by omega)
        omega
    · cases found
  · next leads =>
    cases found
    rw [if_neg leads]
    constructor
    · intro inRange
      omega
    · intro fits
      have read : Numerals.wrap (decimalValue port.toList) = decimalValue port.toList :=
        Numerals.wrapNonnegative (by omega) (by omega) (by omega)
      omega

end Readings

section Arguments

theorem optionsApart {p q : Port} {arg : String} (first : startsWith arg p.option = true)
    (second : startsWith arg q.option = true) : p = q := by
  have apart : ∀ p q : Port, p.option.toList <+: q.option.toList → p = q := by
    intro p q
    cases p <;> cases q <;> decide
  have starts := fun {p : Port} (start : startsWith arg p.option = true) =>
    (List.isPrefixOf_iff_prefix.mp start : p.option.toList <+: arg.toList)
  cases List.prefix_or_prefix_of_prefix (starts first) (starts second) with
  | inl before => exact apart p q before
  | inr after => exact (apart q p after).symm

theorem portListed (p : Port) : p ∈ ports := by
  cases p <;> decide

theorem setPortSpec {s s' : State} {p : Port} {port : String} (set : setPort s p port = .ok s') :
    isValidPort port = true ∧ s'.1.port = Function.update s.1.port p port := by
  unfold setPort at set
  split at set
  · next valid =>
    cases set
    exact ⟨valid, rfl⟩
  · cases set

theorem otherOptionSpec {s s' : State} {arg : String} (none_ : ports.find? (fun p => startsWith arg p.option) = none)
    (parsed : parseArg s arg = .ok s') : s'.1.port = s.1.port := by
  unfold parseArg at parsed
  rw [none_] at parsed
  dsimp only at parsed
  split at parsed
  · unfold setSleepTime at parsed
    split at parsed
    · cases parsed
    · split at parsed
      · cases parsed
      · cases parsed
        rfl
  · split at parsed
    · unfold disableSleep at parsed
      split at parsed
      · cases parsed
      · cases parsed
        rfl
    · split at parsed
      · unfold disableResultParsing at parsed
        split at parsed
        · cases parsed
        · cases parsed
          rfl
      · cases parsed

theorem parseArgSpec {s s' : State} {arg : String} (parsed : parseArg s arg = .ok s') (p : Port) :
    s'.1.port p = (if startsWith arg p.option then afterEquals arg else s.1.port p) ∧
      (isValidPort (s.1.port p) = true → isValidPort (s'.1.port p) = true) := by
  cases found : ports.find? fun p => startsWith arg p.option with
  | none =>
    have starts : ¬ startsWith arg p.option = true := List.find?_eq_none.mp found p (portListed p)
    rw [otherOptionSpec found parsed, if_neg starts]
    exact ⟨rfl, fun valid => valid⟩
  | some q =>
    have starts : startsWith arg q.option = true :=
      @List.find?_some _ (fun p : Port => startsWith arg p.option) q ports found
    unfold parseArg at parsed
    rw [found] at parsed
    obtain ⟨valid, ports_⟩ := setPortSpec parsed
    rw [ports_]
    by_cases same : p = q
    · rw [same, Function.update_self, if_pos starts]
      exact ⟨rfl, fun _ => valid⟩
    · rw [Function.update_of_ne same, if_neg fun other => same (optionsApart other starts)]
      exact ⟨rfl, fun valid => valid⟩

theorem argumentsSpec {args : List String} {s s' : State} (parsed : args.foldlM parseArg s = .ok s') (p : Port) :
    s'.1.port p = ((args.filter (startsWith · p.option)).map afterEquals).getLast?.getD (s.1.port p) ∧
      (isValidPort (s.1.port p) = true → isValidPort (s'.1.port p) = true) := by
  induction args generalizing s with
  | nil =>
    cases parsed
    exact ⟨rfl, fun valid => valid⟩
  | cons arg args ih =>
    rw [List.foldlM_cons] at parsed
    cases first : parseArg s arg with
    | error e =>
      rw [first] at parsed
      cases parsed
    | ok mid =>
      rw [first] at parsed
      obtain ⟨set, stays⟩ := parseArgSpec first p
      obtain ⟨last, valid⟩ := ih parsed
      refine ⟨?_, fun start => valid (stays start)⟩
      rw [last, set, List.filter_cons]
      split
      · next starts =>
        rw [List.map_cons, List.getLast?_cons]
        rfl
      · rfl

theorem checkPortsSpec {s s' : State} (checked : checkPorts s = .ok s') :
    s' = s ∧ ∀ p q, p ≠ q → s.1.port p ≠ s.1.port q := by
  unfold checkPorts at checked
  split at checked
  · cases checked
  · next different =>
    cases checked
    obtain ⟨first, different⟩ := not_or.mp different
    obtain ⟨second, third⟩ := not_or.mp different
    refine ⟨rfl, fun p q other => ?_⟩
    cases p <;> cases q
    all_goals first | exact absurd rfl other | exact first | exact second | exact third | skip
    · exact fun same => first same.symm
    · exact fun same => second same.symm
    · exact fun same => third same.symm

theorem confirmSpec {s s' : State} {accepted : Options} (confirmed : confirm s accepted = .ok s') :
    s'.1 = accepted := by
  unfold confirm at confirmed
  split at confirmed
  · cases confirmed
  · split at confirmed
    · cases confirmed
      rfl
    · cases confirmed

theorem checkSleepTimeSpec {s s' : State} (checked : checkSleepTime s = .ok s') : s'.1.port = s.1.port := by
  unfold checkSleepTime at checked
  split at checked
  · cases checked
    rfl
  · split at checked
    · rw [confirmSpec checked]
    · split at checked
      · rw [confirmSpec checked]
      · cases checked
        rfl

theorem parseArgsSpec {args answers rest : List String} {o : Options}
    (accepted : parseArgs args answers = .ok (o, rest)) :
    o.port = givenPort args ∧ (∀ p, isValidPort (o.port p) = true) ∧
      ∀ p q, p ≠ q → o.port p ≠ o.port q := by
  unfold parseArgs at accepted
  split at accepted
  · cases accepted
  · cases read : args.foldlM parseArg (standardOptions, answers) with
    | error e =>
      rw [read] at accepted
      cases accepted
    | ok s =>
      rw [read] at accepted
      cases checked : checkPorts s with
      | error e =>
        change (checkPorts s).bind checkSleepTime = _ at accepted
        rw [checked] at accepted
        cases accepted
      | ok s' =>
        change (checkPorts s).bind checkSleepTime = _ at accepted
        rw [checked] at accepted
        obtain ⟨same, different⟩ := checkPortsSpec checked
        have kept : o.port = s.1.port := (checkSleepTimeSpec accepted).trans (congrArg (fun s => s.1.port) same)
        have standard : ∀ p : Port, isValidPort p.standard = true := by
          intro p
          cases p <;> decide
        rw [kept]
        exact ⟨funext fun p => (argumentsSpec read p).1, fun p => (argumentsSpec read p).2 (standard p), different⟩

end Arguments

theorem acceptedUsable (args answers rest : List String) (o : Options)
    (accepted : parseArgs args answers = .ok (o, rest)) :
    o.port = givenPort args ∧ (Usable o ↔ (∀ p, Fits (givenPort args p)) ∧
      ∀ p q, p ≠ q → stripZeros (givenPort args p) ≠ stripZeros (givenPort args q)) := by
  obtain ⟨given, valid, -⟩ := parseArgsSpec accepted
  have number := fun p => (validRead (valid p)).1
  have fits := fun p => validFits (valid p)
  have strip := fun p q => Numerals.valueStrip (number p) (number q)
  rw [← given]
  refine ⟨rfl, fun usable => ⟨fun p => (fits p).mp (usable.range p), fun p q other same => ?_⟩, fun both => ?_⟩
  · exact usable.different p q other ((strip p q).mpr same)
  · exact ⟨fun p => (fits p).mpr (both.1 p), fun p q other same => both.2 p q other ((strip p q).mp same)⟩

def ownPorts : List String := ["--s-server-port=5000", "--client-control-port=2000", "--s-server-port=4433"]

theorem acceptedUsableGiven : ∃ o rest, parseArgs ownPorts [] = .ok (o, rest) ∧ Usable o := by
  have accepts : (parseArgs ownPorts []).toOption.isSome = true := by decide +kernel
  cases accepted : parseArgs ownPorts [] with
  | error e =>
    rw [accepted] at accepts
    cases accepts
  | ok s =>
    have usable := (acceptedUsable ownPorts [] s.2 s.1 accepted).2
    refine ⟨s.1, s.2, rfl, usable.mpr ⟨fun p => ?_, fun p q other => ?_⟩⟩
    · cases p <;> decide +kernel
    · cases p <;> cases q
      all_goals first | exact absurd rfl other | decide +kernel

theorem acceptedOctal : ¬ ∀ (args answers rest : List String) (o : Options),
    parseArgs args answers = .ok (o, rest) → Usable o := by
  intro usable
  have accepts : (parseArgs ["--server-control-port=0177777"] []).toOption.isSome = true := by decide +kernel
  have high : ¬ value (givenPort ["--server-control-port=0177777"] .serverControl) ≤ 65535 := by decide +kernel
  cases accepted : parseArgs ["--server-control-port=0177777"] [] with
  | error e =>
    rw [accepted] at accepts
    cases accepts
  | ok s =>
    have range := (usable _ _ s.2 s.1 accepted).range .serverControl
    rw [(parseArgsSpec accepted).1] at range
    exact high range.2

end Armor.Tls.Ports
