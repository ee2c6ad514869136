import Mathlib.Data.List.Chain
import Mathlib.Data.List.Induction
import Mathlib.Data.List.Infix

/-! `configure_conf_statements` of `configure_openssl_cnf.sh`: the `sed` commands and appended lines
of its three modes on the text of `openssl.cnf`, and when its two switching modes are a switch. -/
namespace Armor.Tls.OpensslConf

abbrev Line := List Char

/-- The complete lines of a file and what follows its last newline. -/
structure TextFile where
  lines : List Line
  rest : Line
  deriving DecidableEq

/-- `sed -i` with one substitution. -/
def sed (substitute : Line → Line) (file : TextFile) : TextFile :=
  ⟨file.lines.map substitute, if file.rest = [] then [] else substitute file.rest⟩

def echo (line : Line) (file : TextFile) : TextFile := ⟨file.lines ++ [file.rest ++ line], []⟩

/-- `s/^text$/#text/` -/
def commentWhole (text line : Line) : Line := if line = text then '#' :: text else line

/-- `s/^#text$/text/` -/
def uncommentWhole (text line : Line) : Line := if line = '#' :: text then text else line

/-- `s/text/#text/` -/
def commentFirst (text : Line) : Line → Line
  | [] => []
  | c :: line => if text.isPrefixOf (c :: line) then '#' :: c :: line else c :: commentFirst text line

/-- `s/^#text/text/` -/
def uncommentStart (text line : Line) : Line := if ('#' :: text).isPrefixOf line then line.tail else line

def sslConf : Line := "ssl_conf   = ssl_sect".toList
def sslSect : Line := "[ssl_sect]".toList
def systemDefault : Line := "system_default = system_default_sect".toList
def systemDefaultSect : Line := "[system_default_sect]".toList
def groups : Line := "Groups = $ENV::DEFAULT_GROUPS".toList
def providers : Line := "providers  = provider_sect".toList

section Setup

/-- `/^providers *=/` -/
def setsProviders (line : Line) : Bool :=
  "providers".toList.isPrefixOf line && ((line.drop 9).dropWhile (· = ' ')).head? = some '='

def isSpace (c : Char) : Bool := c ∈ [' ', '\t', '\n', '\x0b', '\x0c', '\r']

/-- `/ssl_conf[[:space:]]*=/` -/
def setsSslConf (line : Line) : Bool :=
  line.tails.any fun part => "ssl_conf".toList.isPrefixOf part && ((part.drop 8).dropWhile isSpace).head? = some '='

def patchLine (line : Line) : List Line :=
  let line := if setsProviders line then providers else line
  if setsSslConf line then []
  else if providers <:+: line then [line, sslConf] else [line]

def opensRange (line : Line) : Bool := "[openssl_init]".toList.isPrefixOf line

/-- Whether a line belongs to the range, and whether the range goes on after it: its first line is
not tested for its end. -/
def selected (inRange : Bool) (line : Line) : Bool := inRange || opensRange line
def rangeAfter (inRange : Bool) (line : Line) : Bool :=
  if inRange then !(['['].isPrefixOf line) else opensRange line

def patch : Bool → List Line → List Line
  | _, [] => []
  | inRange, line :: rest =>
    (if selected inRange line then patchLine line else [line]) ++ patch (rangeAfter inRange line) rest

def patchFile (file : TextFile) : TextFile :=
  let out := patch false file.lines
  if file.rest = [] then ⟨out, []⟩
  else
    match if selected (file.lines.foldl rangeAfter false) file.rest then patchLine file.rest else [file.rest] with
    | [] => ⟨out, []⟩
    | [line] => ⟨out, line⟩
    | lines => ⟨out ++ lines, []⟩

/-- An unquoted word in brackets is a pattern for one-character file names of the working directory,
and stands for itself where there is none. -/
def expand (names : List Char) (word : Line) : Line :=
  match names.filter (· ∈ (word.drop 1).dropLast) with
  | [] => word
  | found => found.intersperse ' '

end Setup

inductive Switch where
  | keyGeneration
  | testing
  deriving DecidableEq, Repr

def setupMode (names : List Char) (file : TextFile) : TextFile :=
  echo groups (echo (expand names systemDefaultSect) (echo systemDefault (echo (expand names sslSect) (patchFile file))))

def switchMode : Switch → TextFile → TextFile
  | .keyGeneration, file =>
    sed (commentFirst groups) (sed (commentWhole systemDefaultSect) (sed (commentWhole systemDefault)
      (sed (commentWhole sslSect) (sed (commentWhole sslConf) file))))
  | .testing, file =>
    sed (uncommentStart groups) (sed (uncommentWhole systemDefaultSect) (sed (uncommentWhole systemDefault)
      (sed (uncommentWhole sslSect) (sed (uncommentWhole sslConf) file))))

def runModes (modes : List Switch) (file : TextFile) : TextFile :=
  modes.foldl (fun file mode => switchMode mode file) file

def wholeLines : List Line := [sslConf, sslSect, systemDefault, systemDefaultSect]

def NoneOccurs (file : TextFile) : Prop :=
  ∀ line ∈ file.rest :: file.lines, ¬ groups <:+: line ∧ ∀ text ∈ wholeLines, line ≠ text ∧ line ≠ '#' :: text

instance (file : TextFile) : Decidable (NoneOccurs file) := by unfold NoneOccurs; infer_instance

def Commented (line : Line) : Prop := ∃ text ∈ wholeLines, line = '#' :: text

instance (line : Line) : Decidable (Commented line) := by unfold Commented; infer_instance

def lastMode (modes : List Switch) (file : TextFile) : TextFile :=
  match modes.getLast? with
  | some .keyGeneration => switchMode .keyGeneration file
  | _ => file

def Alternates : List Switch → Prop := List.IsChain fun first second => first = .keyGeneration → second = .testing

instance (modes : List Switch) : Decidable (Alternates modes) := by unfold Alternates; infer_instance

section Lines

def keyGenerationLine (line : Line) : Line :=
  commentFirst groups (commentWhole systemDefaultSect (commentWhole systemDefault
    (commentWhole sslSect (commentWhole sslConf line))))

def testingLine (line : Line) : Line :=
  uncommentStart groups (uncommentWhole systemDefaultSect (uncommentWhole systemDefault
    (uncommentWhole sslSect (uncommentWhole sslConf line))))

def switchLine : Switch → Line → Line
  | .keyGeneration => keyGenerationLine
  | .testing => testingLine

theorem switchModeLines (mode : Switch) (lines : List Line) :
    switchMode mode ⟨lines, []⟩ = ⟨lines.map (switchLine mode), []⟩ := by
  cases mode <;> simp only [switchMode, sed, if_true, List.map_map] <;> rfl

def runLine (modes : List Switch) (line : Line) : Line := modes.foldl (fun line mode => switchLine mode line) line

theorem runModesLines (modes : List Switch) (lines : List Line) :
    runModes modes ⟨lines, []⟩ = ⟨lines.map (runLine modes), []⟩ := by
  induction modes generalizing lines with
  | nil => exact congrArg (fun lines => TextFile.mk lines []) (List.map_id lines).symm
  | cons mode rest ih =>
    rw [runModes, List.foldl_cons, switchModeLines, ← runModes, ih, List.map_map]
    rfl

theorem commentWholeOther {text line : Line} (other : line ≠ text) : commentWhole text line = line := if_neg other

theorem uncommentWholeOther {text line : Line} (other : line ≠ '#' :: text) : uncommentWhole text line = line :=
  if_neg other

theorem commentFirstAbsent {text : Line} {line : Line} (absent : ¬ text <:+: line) : commentFirst text line = line := by
  induction line with
  | nil => rfl
  | cons c line ih =>
    rw [List.infix_cons_iff] at absent
    obtain ⟨here, later⟩ := not_or.mp absent
    rw [commentFirst, if_neg fun starts => here (List.isPrefixOf_iff_prefix.mp starts), ih later]

theorem uncommentStartAbsent {text : Line} {line : Line} (absent : ¬ text <:+: line) : uncommentStart text line = line :=
  if_neg fun starts => absent
    (List.infix_cons (List.infix_refl text) |>.trans (List.isPrefixOf_iff_prefix.mp starts).isInfix)

theorem plainLine {line : Line} (absent : ¬ groups <:+: line) (whole : ∀ text ∈ wholeLines, line ≠ text)
    (commented : ∀ text ∈ wholeLines, line ≠ '#' :: text) (mode : Switch) : switchLine mode line = line := by
  have member : sslConf ∈ wholeLines ∧ sslSect ∈ wholeLines ∧ systemDefault ∈ wholeLines ∧
      systemDefaultSect ∈ wholeLines := by decide
  cases mode with
  | keyGeneration =>
    rw [switchLine, keyGenerationLine, commentWholeOther (whole _ member.1), commentWholeOther (whole _ member.2.1),
      commentWholeOther (whole _ member.2.2.1), commentWholeOther (whole _ member.2.2.2), commentFirstAbsent absent]
  | testing =>
    rw [switchLine, testingLine, uncommentWholeOther (commented _ member.1),
      uncommentWholeOther (commented _ member.2.1), uncommentWholeOther (commented _ member.2.2.1),
      uncommentWholeOther (commented _ member.2.2.2), uncommentStartAbsent absent]

theorem wholeLineSwitches : ∀ text ∈ wholeLines,
    keyGenerationLine text = '#' :: text ∧ keyGenerationLine ('#' :: text) = '#' :: text ∧
    testingLine text = text ∧ testingLine ('#' :: text) = text := by
  decide

theorem runPlain {line : Line} (same : ∀ mode, switchLine mode line = line) (modes : List Switch) :
    runLine modes line = line := by
  induction modes with
  | nil => rfl
  | cons mode rest ih => rw [runLine, List.foldl_cons, same mode, ← runLine, ih]

theorem runAppend (modes : List Switch) (mode : Switch) (line : Line) :
    runLine (modes ++ [mode]) line = switchLine mode (runLine modes line) := by
  rw [runLine, List.foldl_append]
  rfl

theorem runWholeLine {text : Line} (member : text ∈ wholeLines) (modes : List Switch) {line : Line}
    (form : line = text ∨ line = '#' :: text) :
    runLine modes line = match modes.getLast? with
      | some .keyGeneration => '#' :: text
      | some .testing => text
      | none => line := by
  obtain ⟨keyOn, keyOff, testOn, testOff⟩ := wholeLineSwitches text member
  induction modes using List.reverseRecOn with
  | nil => rfl
  | append_singleton modes mode ih =>
    have reached : runLine modes line = text ∨ runLine modes line = '#' :: text := by
      rw [ih]
      split
      · exact .inr rfl
      · exact .inl rfl
      · exact form
    rw [runAppend, List.getLast?_concat]
    cases mode with
    | keyGeneration =>
      cases reached with
      | inl on => exact (congrArg keyGenerationLine on).trans keyOn
      | inr off => exact (congrArg keyGenerationLine off).trans keyOff
    | testing =>
      cases reached with
      | inl on => exact (congrArg testingLine on).trans testOn
      | inr off => exact (congrArg testingLine off).trans testOff

def hashes (k : Nat) : Line := List.replicate k '#' ++ groups

theorem hashesApart (k : Nat) : ∀ text ∈ wholeLines, hashes k ≠ text ∧ hashes k ≠ '#' :: text := by
  have absent : ∀ text ∈ wholeLines, ¬ groups <:+: text ∧ ¬ groups <:+: '#' :: text := by decide
  intro text member
  have inside : groups <:+: hashes k := (List.suffix_append _ _).isInfix
  exact ⟨fun same => (absent text member).1 (same ▸ inside), fun same => (absent text member).2 (same ▸ inside)⟩

theorem commentFirstHashes (k : Nat) : commentFirst groups (hashes k) = hashes (k + 1) := by
  induction k with
  | zero => decide
  | succ k ih =>
    have other : ¬ groups.isPrefixOf ('#' :: hashes k) = true := by
      intro starts
      have first := (List.isPrefixOf_iff_prefix.mp starts)
      have letter : groups = 'G' :: groups.tail := by decide
      rw [letter, List.cons_prefix_cons] at first
      exact absurd first.1 (by decide)
    change commentFirst groups ('#' :: hashes k) = '#' :: hashes (k + 1)
    rw [commentFirst, if_neg other, ih]

theorem keyGenerationHashes (k : Nat) : keyGenerationLine (hashes k) = hashes (k + 1) := by
  have apart := hashesApart k
  rw [keyGenerationLine, commentWholeOther (apart _ (by decide)).1, commentWholeOther (apart _ (by decide)).1,
    commentWholeOther (apart _ (by decide)).1, commentWholeOther (apart _ (by decide)).1, commentFirstHashes]

theorem testingHashes (k : Nat) : testingLine (hashes k) = hashes (if k = 1 then 0 else k) := by
  have apart := hashesApart k
  rw [testingLine, uncommentWholeOther (apart _ (by decide)).2, uncommentWholeOther (apart _ (by decide)).2,
    uncommentWholeOther (apart _ (by decide)).2, uncommentWholeOther (apart _ (by decide)).2]
  match k with
  | 0 => decide
  | 1 => decide
  | k + 2 =>
    refine if_neg fun starts => ?_
    have first := (List.isPrefixOf_iff_prefix.mp starts)
    have letter : groups = 'G' :: groups.tail := by decide
    change '#' :: groups <+: '#' :: '#' :: hashes k at first
    rw [List.cons_prefix_cons, letter, List.cons_prefix_cons] at first
    exact absurd first.2.1 (by decide)

def signs (modes : List Switch) : Nat :=
  modes.foldl (fun k mode => match mode with
    | .keyGeneration => k + 1
    | .testing => if k = 1 then 0 else k) 0

theorem signsAppend (modes : List Switch) (mode : Switch) : signs (modes ++ [mode]) = match mode with
    | .keyGeneration => signs modes + 1
    | .testing => if signs modes = 1 then 0 else signs modes := by
  rw [signs, List.foldl_append]
  rfl

theorem runGroups (modes : List Switch) : runLine modes groups = hashes (signs modes) := by
  induction modes using List.reverseRecOn with
  | nil => rfl
  | append_singleton modes mode ih =>
    rw [runAppend, ih, signsAppend]
    cases mode with
    | keyGeneration => exact keyGenerationHashes _
    | testing => exact testingHashes _

theorem alternatesAppend (modes : List Switch) (mode : Switch) : Alternates (modes ++ [mode]) ↔
    Alternates modes ∧ (modes.getLast? = some .keyGeneration → mode = .testing) := by
  rw [Alternates, List.isChain_append]
  constructor
  · rintro ⟨before, -, last⟩
    exact ⟨before, fun here => last _ here mode rfl rfl⟩
  · rintro ⟨before, last⟩
    refine ⟨before, List.isChain_singleton mode, ?_⟩
    rintro first here second found rfl
    cases found
    exact last here

theorem signsAlternate (modes : List Switch) :
    (Alternates modes → signs modes = if modes.getLast? = some .keyGeneration then 1 else 0) ∧
    (¬ Alternates modes → 2 ≤ signs modes) := by
  induction modes using List.reverseRecOn with
  | nil => exact ⟨fun _ => rfl, fun broken => absurd List.IsChain.nil broken⟩
  | append_singleton modes mode ih =>
    rw [alternatesAppend, signsAppend, List.getLast?_concat]
    by_cases before : Alternates modes
    · have count := ih.1 before
      cases mode with
      | keyGeneration =>
        by_cases last : modes.getLast? = some .keyGeneration
        · rw [if_pos last] at count
          refine ⟨fun both => absurd (both.2 last) (by decide), fun _ => ?_⟩
          dsimp only
          omega
        · rw [if_neg last] at count
          refine ⟨fun _ => ?_, fun broken => absurd ⟨before, fun here => absurd here last⟩ broken⟩
          dsimp only
          rw [count, if_pos rfl]
      | testing =>
        refine ⟨fun _ => ?_, fun broken => absurd ⟨before, fun _ => rfl⟩ broken⟩
        dsimp only
        split at count <;> rw [count] <;> decide
    · have count := ih.2 before
      refine ⟨fun both => absurd both.1 before, fun _ => ?_⟩
      cases mode with
      | keyGeneration =>
        dsimp only
        omega
      | testing =>
        dsimp only
        rw [if_neg (by omega)]
        exact count

end Lines

section Produced

theorem patchLineFrom {line out : Line} (member : out ∈ patchLine line) :
    out = line ∨ out = providers ∨ out = sslConf := by
  unfold patchLine at member
  dsimp only at member
  have changed : (if setsProviders line then providers else line) = line ∨
      (if setsProviders line then providers else line) = providers := by
    split
    · exact .inr rfl
    · exact .inl rfl
  generalize (if setsProviders line then providers else line) = set_ at member changed
  split at member
  · exact absurd member List.not_mem_nil
  · split at member
    · cases List.mem_cons.mp member with
      | inl same =>
        rw [same]
        exact changed.imp_right .inl
      | inr last => exact .inr (.inr (List.mem_singleton.mp last))
    · rw [List.mem_singleton.mp member]
      exact changed.imp_right .inl

theorem patchFrom {lines : List Line} {inRange : Bool} {out : Line} (member : out ∈ patch inRange lines) :
    out ∈ lines ∨ out = providers ∨ out = sslConf := by
  induction lines generalizing inRange with
  | nil => exact absurd member List.not_mem_nil
  | cons line rest ih =>
    rw [patch] at member
    cases List.mem_append.mp member with
    | inl here =>
      split at here
      · refine (patchLineFrom here).imp_left fun same => ?_
        rw [same]
        exact List.mem_cons_self
      · exact .inl (List.mem_singleton.mp here ▸ List.mem_cons_self)
    | inr later => exact (ih later).imp_left (List.mem_cons_of_mem line)

theorem patchFileFrom (file : TextFile) {out : Line} (member : out ∈ (patchFile file).rest :: (patchFile file).lines) :
    out = [] ∨ out ∈ file.rest :: file.lines ∨ out = providers ∨ out = sslConf := by
  have body : ∀ line ∈ patch false file.lines,
      line = [] ∨ line ∈ file.rest :: file.lines ∨ line = providers ∨ line = sslConf := fun line inside =>
    .inr ((patchFrom inside).imp_left (List.mem_cons_of_mem _))
  unfold patchFile at member
  dsimp only at member
  split at member
  · cases List.mem_cons.mp member with
    | inl same => exact .inl same
    | inr inside => exact body out inside
  · have tail : ∀ line ∈ (if selected (file.lines.foldl rangeAfter false) file.rest then patchLine file.rest
        else [file.rest]), line = [] ∨ line ∈ file.rest :: file.lines ∨ line = providers ∨ line = sslConf := by
      intro line inside
      split at inside
      · refine .inr ((patchLineFrom inside).imp_left fun same => ?_)
        rw [same]
        exact List.mem_cons_self
      · exact .inr (.inl (List.mem_singleton.mp inside ▸ List.mem_cons_self))
    split at member
    · cases List.mem_cons.mp member with
      | inl same => exact .inl same
      | inr inside => exact body out inside
    · next line one =>
      cases List.mem_cons.mp member with
      | inl same => exact tail out (one ▸ same ▸ List.mem_cons_self)
      | inr inside => exact body out inside
    · cases List.mem_cons.mp member with
      | inl same => exact .inl same
      | inr inside =>
        cases List.mem_append.mp inside with
        | inl early => exact body out early
        | inr late => exact tail out late

theorem patchFileAbsent {file : TextFile} (none_ : NoneOccurs file) {line : Line}
    (member : line ∈ (patchFile file).rest :: (patchFile file).lines) : ¬ groups <:+: line := by
  rcases patchFileFrom file member with rfl | inside | rfl | rfl
  · decide
  · exact (none_ line inside).1
  · decide
  · decide

theorem appendAbsent {line word : Line} (absent : ¬ groups <:+: line) (letter : 'S' ∉ word) :
    ¬ groups <:+: line ++ word := by
  rintro ⟨before, after, same⟩
  rcases List.append_eq_append_iff.mp same with ⟨part, left, right⟩ | ⟨part, left, right⟩
  · exact absent ⟨before, part, left.symm⟩
  · cases part using List.reverseRecOn with
    | nil =>
      rw [List.append_nil] at left
      exact absent ⟨before, [], by rw [List.append_nil, left]⟩
    | append_singleton part last =>
      have ends : groups = groups.dropLast ++ ['S'] := by decide
      rw [ends, ← List.append_assoc, ← List.append_assoc] at left
      have same := (List.append_inj' left rfl).2
      cases same
      exact letter (right ▸ List.mem_append_left _ (List.mem_append_right _ List.mem_cons_self))

theorem intersperseFrom {names : List Char} {c : Char} (member : c ∈ names.intersperse ' ') : c ∈ names ∨ c = ' ' := by
  induction names with
  | nil => exact .inl member
  | cons name rest ih =>
    cases rest with
    | nil => exact .inl member
    | cons next rest =>
      rw [List.intersperse_cons_cons, List.mem_cons, List.mem_cons] at member
      rcases member with rfl | rfl | later
      · exact .inl List.mem_cons_self
      · exact .inr rfl
      · exact (ih later).imp_left (List.mem_cons_of_mem _)

theorem expandLetters (names : List Char) {word : Line} (letter : 'S' ∉ word) : 'S' ∉ expand names word := by
  unfold expand
  split
  · exact letter
  · intro member
    cases intersperseFrom member with
    | inl found =>
      have inner := of_decide_eq_true (List.mem_filter.mp found).2
      exact letter (List.mem_of_mem_drop (List.mem_of_mem_dropLast inner))
    | inr space => exact absurd space (by decide)

theorem setupModeLines (names : List Char) (file : TextFile) : setupMode names file =
    ⟨(patchFile file).lines ++ [(patchFile file).rest ++ expand names sslSect] ++ [systemDefault] ++
      [expand names systemDefaultSect] ++ [groups], []⟩ := rfl

theorem setupModeGroups {file : TextFile} (none_ : NoneOccurs file) (names : List Char) {line : Line}
    (member : line ∈ (setupMode names file).lines) (inside : groups <:+: line) : line = groups := by
  rw [setupModeLines] at member
  simp only [List.append_assoc, List.mem_append, List.mem_singleton] at member
  rcases member with body | rfl | rfl | rfl | last
  · exact absurd inside (patchFileAbsent none_ (List.mem_cons_of_mem _ body))
  · exact absurd inside (appendAbsent (patchFileAbsent none_ List.mem_cons_self) (expandLetters names (by decide)))
  · exact absurd inside (by decide)
  · exact absurd inside (@appendAbsent [] _ (by decide) (expandLetters names (by decide)))
  · exact last

end Produced

theorem runGroupsLast (modes : List Switch) : runLine modes groups =
    (if modes.getLast? = some .keyGeneration then keyGenerationLine groups else groups) ↔ Alternates modes := by
  have once : keyGenerationLine groups = hashes 1 := keyGenerationHashes 0
  have counts : ∀ k m, hashes k = hashes m → k = m := fun k m same => by
    have lengths := congrArg List.length same
    simp only [hashes, List.length_append, List.length_replicate] at lengths
    omega
  rw [runGroups, once, show groups = hashes 0 from rfl, ← apply_ite hashes]
  constructor
  · intro same
    by_contra broken
    have many := (signsAlternate modes).2 broken
    have count := counts _ _ same
    split at count <;> omega
  · intro alternates
    rw [(signsAlternate modes).1 alternates]

theorem runLineLast {line : Line} (only : groups <:+: line → line = groups) (modes : List Switch) :
    runLine modes line = (if modes.getLast? = some .keyGeneration then keyGenerationLine line else line) ↔
      (line = groups → Alternates modes) ∧ (modes.getLast? = some .testing → ¬ Commented line) := by
  by_cases isGroups : line = groups
  · subst isGroups
    have apart : ¬ Commented groups := by decide
    rw [runGroupsLast]
    exact ⟨fun alternates => ⟨fun _ => alternates, fun _ => apart⟩, fun both => both.1 rfl⟩
  · have absent : ¬ groups <:+: line := fun inside => isGroups (only inside)
    by_cases whole : ∃ text ∈ wholeLines, line = text ∨ line = '#' :: text
    · obtain ⟨text, member, form⟩ := whole
      obtain ⟨keyOn, keyOff, -, -⟩ := wholeLineSwitches text member
      have keyed : keyGenerationLine line = '#' :: text := by
        cases form with
        | inl on => rw [on, keyOn]
        | inr off => rw [off, keyOff]
      rw [runWholeLine member modes form, keyed]
      cases last : modes.getLast? with
      | none => exact ⟨fun _ => ⟨fun here => absurd here isGroups, nofun⟩, fun _ => rfl⟩
      | some mode =>
        cases mode with
        | keyGeneration => exact ⟨fun _ => ⟨fun here => absurd here isGroups, nofun⟩, fun _ => rfl⟩
        | testing =>
          refine ⟨fun same => ⟨fun here => absurd here isGroups, fun _ commented => ?_⟩, fun both => ?_⟩
          · obtain ⟨text', member', off⟩ := commented
            have apart : ∀ text ∈ wholeLines, ∀ text' ∈ wholeLines, text ≠ '#' :: text' := by decide
            exact apart text member text' member' (same.trans off)
          · cases form with
            | inl on => exact on.symm
            | inr off => exact absurd ⟨text, member, off⟩ (both.2 rfl)
    · have plain : ∀ mode, switchLine mode line = line := plainLine absent
        (fun text member same => whole ⟨text, member, .inl same⟩)
        (fun text member same => whole ⟨text, member, .inr same⟩)
      rw [runPlain plain, show keyGenerationLine line = line from plain .keyGeneration, ite_self]
      exact ⟨fun _ => ⟨fun here => absurd here isGroups, fun _ commented => whole (by
        obtain ⟨text, member, off⟩ := commented
        exact ⟨text, member, .inr off⟩)⟩, fun _ => rfl⟩

theorem lastModeLines (modes : List Switch) (lines : List Line) : lastMode modes ⟨lines, []⟩ =
    ⟨lines.map fun line => if modes.getLast? = some .keyGeneration then keyGenerationLine line else line, []⟩ := by
  unfold lastMode
  cases last : modes.getLast? with
  | none => exact congrArg (fun lines => TextFile.mk lines []) (List.map_id lines).symm
  | some mode =>
    cases mode with
    | keyGeneration => exact switchModeLines .keyGeneration lines
    | testing => exact congrArg (fun lines => TextFile.mk lines []) (List.map_id lines).symm

theorem configureSwitches (names : List Char) (file : TextFile) (none_ : NoneOccurs file) (modes : List Switch) :
    runModes modes (setupMode names file) = lastMode modes (setupMode names file) ↔
      Alternates modes ∧
        (modes.getLast? = some .testing → ∀ line ∈ (setupMode names file).lines, ¬ Commented line) := by
  have only : ∀ line ∈ (setupMode names file).lines, groups <:+: line → line = groups := fun _ member =>
    setupModeGroups none_ names member
  have last : groups ∈ (setupMode names file).lines := by
    rw [setupModeLines]
    exact List.mem_append_right _ List.mem_cons_self
  have ended : setupMode names file = ⟨(setupMode names file).lines, []⟩ := rfl
  rw [ended, runModesLines, lastModeLines, TextFile.mk.injEq, and_iff_left rfl, List.map_inj_left]
  constructor
  · intro same
    refine ⟨?_, fun testing line member => ?_⟩
    · exact ((runLineLast (only groups last) modes).mp (same groups last)).1 rfl
    · exact ((runLineLast (only line member) modes).mp (same line member)).2 testing
  · rintro ⟨alternates, open_⟩ line member
    exact (runLineLast (only line member) modes).mpr ⟨fun _ => alternates, fun testing => open_ testing line member⟩

def smallConf : TextFile := ⟨["[openssl_init]".toList, "providers = provider_sect".toList], []⟩

theorem configureSwitchesSmall : runModes [.keyGeneration, .testing] (setupMode [] smallConf) =
    lastMode [.keyGeneration, .testing] (setupMode [] smallConf) ↔
      Alternates [.keyGeneration, .testing] ∧ ([Switch.keyGeneration, .testing].getLast? = some .testing →
        ∀ line ∈ (setupMode [] smallConf).lines, ¬ Commented line) :=
  configureSwitches [] smallConf (by decide) [.keyGeneration, .testing]

theorem repeatedModeStays : ¬ ∀ names file, NoneOccurs file → ∀ modes,
    runModes modes (setupMode names file) = lastMode modes (setupMode names file) := by
  intro switches
  have same := switches [] smallConf (by decide) [.keyGeneration, .keyGeneration, .testing]
  exact absurd same (by decide)

end Armor.Tls.OpensslConf
