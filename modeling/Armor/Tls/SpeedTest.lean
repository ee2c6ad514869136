import Armor.Lib.Script
import Armor.Tls.OpensslConf

/-! `tls_speed_test.sh`: the `openssl speed` commands of every run, between the switch of `openssl.cnf` to
key generation and the switch back. The configuration script finds the file it switches. -/
namespace Armor.Tls.SpeedTest
open OpensslConf
open Script (Exit)

inductive TestType where
  | pqcKems
  | pqcSignatures
  | hybridKems
  | hybridSignatures
  deriving DecidableEq, Repr

def testTypes : List TestType := [.pqcKems, .pqcSignatures, .hybridKems, .hybridSignatures]

def TestType.title : TestType → String
  | .pqcKems => "PQC-KEMs"
  | .pqcSignatures => "PQC-Digital Signatures"
  | .hybridKems => "Hybrid-PQC KEMs"
  | .hybridSignatures => "Hybrid-PQC-Digital-Signatures"

/-- What `setup_test_env` finds. A list that cannot be read is empty. -/
structure Environment where
  rootMarker : Bool
  oqsProvider : Bool
  openssl : Bool
  tmpDir : String
  pqcSpeed : String
  hybridSpeed : String
  timeNum : String
  numRun : Nat
  algs : TestType → List String

structure Call where
  run : Nat
  test : TestType
  seconds : String
  algs : String
  output : String
  errorLog : String
  deriving DecidableEq

structure State where
  conf : TextFile
  calls : List Call
  errorLogs : List String

variable (env : Environment)

def Environment.outputFile : TestType → String
  | .pqcKems => env.pqcSpeed ++ "/tls_speed_kem"
  | .pqcSignatures => env.pqcSpeed ++ "/tls_speed_sig"
  | .hybridKems => env.hybridSpeed ++ "/tls_speed_hybrid_kem"
  | .hybridSignatures => env.hybridSpeed ++ "/tls_speed_hybrid_sig"

def Environment.call (run : Nat) (test : TestType) : Call where
  run := run
  test := test
  seconds := env.timeNum
  algs := " ".intercalate (env.algs test)
  output := env.outputFile test ++ "_" ++ run.repr ++ ".txt"
  errorLog := env.tmpDir ++ "/tls_speed_test_" ++ run.repr ++ "_" ++ test.title ++ ".log"

def Environment.Present : Prop := env.rootMarker = true ∧ env.oqsProvider = true ∧ env.openssl = true

instance : Decidable env.Present := inferInstanceAs (Decidable (_ ∧ _ ∧ _))

def setupTestEnv (s : State) : Except (Exit State) State := if env.Present then .ok s else .error ⟨1, s⟩

variable (status : Call → Nat)

def speedTest (run : Nat) (s : State) (test : TestType) : Except (Exit State) State :=
  let call := env.call run test
  let s := { s with calls := s.calls ++ [call], errorLogs := s.errorLogs ++ [call.errorLog] }
  if status call ≠ 0 then .error ⟨1, s⟩ else .ok { s with errorLogs := s.errorLogs.erase call.errorLog }

def tlsSpeedTest (s : State) : Except (Exit State) State :=
  (List.range' 1 env.numRun).foldlM (fun s run => testTypes.foldlM (speedTest env status run) s) s

def configureOpensslCnf (mode : Switch) (s : State) : State := { s with conf := switchMode mode s.conf }

def tlsSpeedTestEntrypoint (s : State) : Except (Exit State) State := do
  let s ← setupTestEnv env s
  let s ← tlsSpeedTest env status (configureOpensslCnf .keyGeneration s)
  .ok (configureOpensslCnf .testing s)

def AllPass : Prop := ∀ run, 1 ≤ run → run ≤ env.numRun → ∀ test, status (env.call run test) = 0

def Reversible (line : Line) : Prop := ¬ Commented line ∧ (groups <:+: line → groups <+: line)

section Commands

variable {env status}

theorem speedTestPasses (run : Nat) (s : State) (test : TestType) :
    Script.Passes (speedTest env status run s test) ↔ status (env.call run test) = 0 := by
  unfold speedTest
  dsimp only
  split
  · next failed =>
    refine ⟨fun ⟨_, same⟩ => ?_, fun passed => absurd passed failed⟩
    cases same
  · next passed => exact ⟨fun _ => Decidable.not_not.mp passed, fun _ => ⟨_, rfl⟩⟩

theorem speedTestConf (run : Nat) (s : State) (test : TestType) :
    (Script.finish (speedTest env status run s test)).left.conf = s.conf := by
  unfold speedTest
  dsimp only
  split <;> rfl

theorem everyTest {p : TestType → Prop} : (∀ test ∈ testTypes, p test) ↔ ∀ test, p test := by
  refine ⟨fun all test => all test ?_, fun all test _ => all test⟩
  cases test <;> decide

theorem tlsSpeedTestPasses (s : State) : Script.Passes (tlsSpeedTest env status s) ↔ AllPass env status := by
  have inner : ∀ s run, Script.Passes (testTypes.foldlM (speedTest env status run) s) ↔
      ∀ test, status (env.call run test) = 0 := fun s run =>
    (Script.foldPasses (fun s test _ => speedTestPasses run s test) s).trans everyTest
  rw [tlsSpeedTest, Script.foldPasses (fun s run _ => inner s run)]
  simp only [List.mem_range'_1, AllPass, and_imp]
  exact forall_congr' fun run => imp_congr_right fun _ => imp_congr_left (by omega)

theorem tlsSpeedTestConf (s : State) : (Script.finish (tlsSpeedTest env status s)).left.conf = s.conf :=
  Script.foldKeeps State.conf
    (fun s run _ => Script.foldKeeps State.conf (fun s test _ => speedTestConf run s test) s) s

end Commands

section Switches

theorem commentFirstLength {text line : Line} (some_ : text ≠ []) (inside : text <:+: line) :
    (commentFirst text line).length = line.length + 1 := by
  induction line with
  | nil => exact absurd (List.infix_nil.mp inside) some_
  | cons c line ih =>
    rw [commentFirst]
    split
    · rfl
    · next other =>
      have later : text <:+: line := (List.infix_cons_iff.mp inside).resolve_left fun here =>
        other (List.isPrefixOf_iff_prefix.mpr here)
      rw [List.length_cons, ih later, List.length_cons]

theorem commentFirstPrefix {text line start : Line} (letters : '#' ∉ start)
    (begins : start <+: commentFirst text line) : start <+: line := by
  induction line generalizing start with
  | nil => exact begins
  | cons c line ih =>
    cases start with
    | nil => exact List.nil_prefix
    | cons d start =>
      rw [commentFirst] at begins
      split at begins
      · have same := (List.cons_prefix_cons.mp begins).1
        exact absurd (same ▸ List.mem_cons_self) letters
      · obtain ⟨same, rest⟩ := List.cons_prefix_cons.mp begins
        exact List.cons_prefix_cons.mpr ⟨same, ih (fun member => letters (List.mem_cons_of_mem _ member)) rest⟩

theorem commentFirstHere {text line : Line} (some_ : text ≠ []) (here : text <+: line) :
    commentFirst text line = '#' :: line := by
  cases line with
  | nil => exact absurd (List.prefix_nil.mp here) some_
  | cons c line => rw [commentFirst, if_pos (List.isPrefixOf_iff_prefix.mpr here)]

theorem notHashFirst (line : Line) : ¬ groups <+: '#' :: line := by
  rintro ⟨rest, same⟩
  cases same

theorem groupsNotFirst (line : Line) : ¬ groups <+: commentFirst groups line := by
  intro begins
  have here : groups <+: line := commentFirstPrefix (by decide) begins
  rw [commentFirstHere (by decide) here] at begins
  exact notHashFirst line begins

theorem groupsReversed {line : Line} (inside : groups <:+: line) :
    uncommentStart groups (commentFirst groups line) = line ↔ groups <+: line := by
  constructor
  · intro same
    cases line with
    | nil => exact absurd (List.infix_nil.mp inside) (by decide)
    | cons c line =>
      by_contra other
      have later : groups <:+: line := (List.infix_cons_iff.mp inside).resolve_left other
      have lengths := congrArg List.length same
      rw [commentFirst, if_neg fun here => other (List.isPrefixOf_iff_prefix.mp here),
        uncommentStart, if_neg fun starts => groupsNotFirst line
          (List.cons_prefix_cons.mp (List.isPrefixOf_iff_prefix.mp starts)).2,
        List.length_cons, commentFirstLength (by decide) later, List.length_cons] at lengths
      omega
  · intro here
    have again : ('#' :: groups).isPrefixOf ('#' :: line) = true :=
      List.isPrefixOf_iff_prefix.mpr (List.cons_prefix_cons.mpr ⟨rfl, here⟩)
    rw [commentFirstHere (by decide) here, uncommentStart, if_pos again]
    rfl

theorem groupsLine {line : Line} (inside : groups <:+: line) (text : Line) (member : text ∈ wholeLines) :
    line ≠ text ∧ line ≠ '#' :: text := by
  have absent : ∀ text ∈ wholeLines, ¬ groups <:+: text ∧ ¬ groups <:+: '#' :: text := by decide
  exact ⟨fun same => (absent text member).1 (same ▸ inside), fun same => (absent text member).2 (same ▸ inside)⟩

theorem commentFirstInside {line : Line} (inside : groups <:+: line) :
    groups <:+: commentFirst groups line := by
  induction line with
  | nil => exact inside
  | cons c line ih =>
    rw [commentFirst]
    split
    · exact List.infix_cons inside
    · next other =>
      exact List.infix_cons (ih ((List.infix_cons_iff.mp inside).resolve_left fun here =>
        other (List.isPrefixOf_iff_prefix.mpr here)))

theorem switchedBack (line : Line) :
    testingLine (keyGenerationLine line) = line ↔ Reversible line := by
  by_cases inside : groups <:+: line
  · have member : sslConf ∈ wholeLines ∧ sslSect ∈ wholeLines ∧
        systemDefault ∈ wholeLines ∧ systemDefaultSect ∈ wholeLines := by
      decide
    have before := fun text member => (groupsLine inside text member).1
    have after := fun text member => (groupsLine (commentFirstInside inside) text member).2
    have open_ : ¬ Commented line := by
      rintro ⟨text, member, same⟩
      exact (groupsLine inside text member).2 same
    rw [keyGenerationLine, commentWholeOther (before _ member.1),
      commentWholeOther (before _ member.2.1), commentWholeOther (before _ member.2.2.1),
      commentWholeOther (before _ member.2.2.2), testingLine,
      uncommentWholeOther (after _ member.1), uncommentWholeOther (after _ member.2.1),
      uncommentWholeOther (after _ member.2.2.1), uncommentWholeOther (after _ member.2.2.2),
      groupsReversed inside]
    exact ⟨fun here => ⟨open_, fun _ => here⟩, fun both => both.2 inside⟩
  · have apart : ∀ text ∈ wholeLines, ∀ text' ∈ wholeLines, text ≠ '#' :: text' := by decide
    rw [Reversible, and_iff_left fun there => absurd there inside]
    by_cases whole : ∃ text ∈ wholeLines, line = text ∨ line = '#' :: text
    · obtain ⟨text, member, form⟩ := whole
      obtain ⟨keyOn, keyOff, testOn, testOff⟩ := wholeLineSwitches text member
      cases form with
      | inl on =>
        rw [on, keyOn, testOff]
        refine ⟨fun _ => ?_, fun _ => rfl⟩
        rintro ⟨text', member', same⟩
        exact apart text member text' member' same
      | inr off =>
        rw [off, keyOff, testOff]
        exact ⟨fun same => absurd same (apart text member text member),
          fun open_ => absurd ⟨text, member, rfl⟩ open_⟩
    · have plain : ∀ mode, switchLine mode line = line := plainLine inside
        (fun text member same => whole ⟨text, member, .inl same⟩)
        (fun text member same => whole ⟨text, member, .inr same⟩)
      rw [show keyGenerationLine line = line from plain .keyGeneration]
      refine iff_of_true (plain .testing) ?_
      rintro ⟨text, member, same⟩
      exact whole ⟨text, member, .inr same⟩

end Switches

section Runs

variable {env status} {s : State} (names : List Char) (file : TextFile)

theorem keyGenerationStays (changed : switchMode .keyGeneration (setupMode names file) = setupMode names file) :
    False := by
  have last : groups ∈ (setupMode names file).lines := by
    rw [setupModeLines]
    exact List.mem_append_right _ List.mem_cons_self
  have ended : setupMode names file = ⟨(setupMode names file).lines, []⟩ := rfl
  have once : keyGenerationLine groups = hashes 1 := keyGenerationHashes 0
  rw [ended, switchModeLines, TextFile.mk.injEq, and_iff_left rfl] at changed
  have same : keyGenerationLine groups = groups :=
    List.map_inj_left.mp (changed.trans (List.map_id _).symm) groups last
  rw [once] at same
  exact absurd same (by decide)

theorem switchesRestore :
    switchMode .testing (switchMode .keyGeneration (setupMode names file)) = setupMode names file ↔
      ∀ line ∈ (setupMode names file).lines, Reversible line := by
  have ended : setupMode names file = ⟨(setupMode names file).lines, []⟩ := rfl
  rw [ended, switchModeLines, switchModeLines, TextFile.mk.injEq, and_iff_left rfl, List.map_map]
  refine ⟨fun same line member => ?_, fun all => ?_⟩
  · exact (switchedBack line).mp (List.map_inj_left.mp (same.trans (List.map_id _).symm) line member)
  · exact (List.map_congr_left fun line member => (switchedBack line).mpr (all line member)).trans (List.map_id _)

theorem speedTestRestores (names : List Char) (file : TextFile) (env : Environment) (status : Call → Nat) :
    (Script.finish (tlsSpeedTestEntrypoint env status ⟨setupMode names file, [], []⟩)).left.conf =
        setupMode names file ↔
      ¬ env.Present ∨ (AllPass env status ∧ ∀ line ∈ (setupMode names file).lines, Reversible line) := by
  generalize start : State.mk (setupMode names file) [] [] = s
  have conf : s.conf = setupMode names file := by rw [← start]
  by_cases present : env.Present
  · have setup : setupTestEnv env s = .ok s := if_pos present
    have kept := @tlsSpeedTestConf env status (configureOpensslCnf .keyGeneration s)
    have passes := @tlsSpeedTestPasses env status (configureOpensslCnf .keyGeneration s)
    change (Script.finish ((setupTestEnv env s).bind fun s =>
      (tlsSpeedTest env status (configureOpensslCnf .keyGeneration s)).bind fun s =>
        .ok (configureOpensslCnf .testing s))).left.conf = _ ↔ _
    rw [setup, Except.bind]
    cases ran : tlsSpeedTest env status (configureOpensslCnf .keyGeneration s) with
    | error e =>
      rw [ran] at kept passes
      have failed : ¬ AllPass env status := fun all => by
        obtain ⟨_, same⟩ := passes.mpr all
        cases same
      have left : e.left.conf = switchMode .keyGeneration (setupMode names file) :=
        kept.trans (congrArg (switchMode .keyGeneration) conf)
      change e.left.conf = _ ↔ _
      rw [left]
      exact ⟨fun same => (keyGenerationStays names file same).elim, fun stops =>
        (stops.elim (absurd present) fun both => absurd both.1 failed)⟩
    | ok s' =>
      rw [ran] at kept passes
      have all : AllPass env status := passes.mp ⟨s', rfl⟩
      have left : s'.conf = switchMode .keyGeneration (setupMode names file) :=
        kept.trans (congrArg (switchMode .keyGeneration) conf)
      change switchMode .testing s'.conf = _ ↔ _
      rw [left, switchesRestore]
      exact ⟨fun lines => .inr ⟨all, lines⟩, fun stops => (stops.resolve_left (absurd present)).2⟩
  · have setup : setupTestEnv env s = .error ⟨1, s⟩ := if_neg present
    change (Script.finish ((setupTestEnv env s).bind _)).left.conf = _ ↔ _
    rw [setup]
    exact iff_of_true conf (.inl present)

end Runs

def oneRun : Environment where
  rootMarker := true
  oqsProvider := true
  openssl := true
  tmpDir := "tmp"
  pqcSpeed := "pqc"
  hybridSpeed := "hybrid"
  timeNum := "5"
  numRun := 1
  algs _ := []

theorem failedRunKeepsKeyGeneration : ¬ ∀ (names : List Char) (file : TextFile) (env : Environment)
    (status : Call → Nat),
    (Script.finish (tlsSpeedTestEntrypoint env status ⟨setupMode names file, [], []⟩)).left.conf = setupMode names file := by
  intro restored
  have same := restored [] smallConf oneRun fun _ => 1
  have left :
      (Script.finish (tlsSpeedTestEntrypoint oneRun (fun _ => 1) ⟨setupMode [] smallConf, [], []⟩)).left.conf =
        switchMode .keyGeneration (setupMode [] smallConf) := rfl
  rw [left] at same
  exact absurd same (by decide)

end Armor.Tls.SpeedTest
