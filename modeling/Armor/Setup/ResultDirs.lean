import Armor.Tls.MachineId

/-! The result directories at the start of testing: the directory part of `setup_test_suite` in
`pqc_performance_test.sh` beside `configure_results_dir` of the TLS script, and what either leaves in the
file tree. The root path is one word for the shell, which reads it unquoted after `rm -rf`. -/
namespace Armor.Setup
open Tls.MachineId (Session TlsPaths getMachineNum getMachineNumSpec getUserYesNo getPositive testDataDir tlsPaths)

variable {α σ : Type}

section Dialogue

structure ClashHandler (σ : Type) where
  replace : σ → σ
  assign : σ → String → σ
  occupied : σ → Bool

def ClashHandler.run (h : ClashHandler σ) (s : σ) : List String → Option (σ × List String)
  | [] => none
  | answer :: answers =>
    if answer = "1" then some (h.replace s, answers)
    else if answer = "2" then
      match _got : getMachineNum answers with
      | none => none
      | some (id, rest) =>
        let s := h.assign s id
        if h.occupied s then h.run s rest else some (s, rest)
    else h.run s answers
  termination_by answers => answers.length
  decreasing_by
    · have := (getMachineNumSpec _got).1
      simp only [List.length_cons]
      omega
    · simp only [List.length_cons]
      omega

def replaceChosen (occupied : String → Bool) : List String → Bool
  | [] => false
  | answer :: answers =>
    if answer = "1" then true
    else if answer = "2" then
      match _got : getMachineNum answers with
      | none => false
      | some (id, rest) => occupied id && replaceChosen occupied rest
    else replaceChosen occupied answers
  termination_by answers => answers.length
  decreasing_by
    · have := (getMachineNumSpec _got).1
      simp only [List.length_cons]
      omega
    · simp only [List.length_cons]
      omega

theorem dialogueInduction {P : List String → Prop} (nil : P []) (one : ∀ answers, P ("1" :: answers))
    (two : ∀ answers, (∀ id rest, getMachineNum answers = some (id, rest) → P rest) → P ("2" :: answers))
    (other : ∀ answer answers, answer ≠ "1" → answer ≠ "2" → P answers → P (answer :: answers))
    (answers : List String) : P answers := by
  induction answers using WellFounded.induction (measure List.length).wf with
  | _ answers ih =>
    cases answers with
    | nil => exact nil
    | cons answer answers =>
      by_cases first : answer = "1"
      · exact first ▸ one answers
      · by_cases second : answer = "2"
        · subst second
          refine two answers fun id rest got => ih rest ?_
          exact (getMachineNumSpec got).1.trans (Nat.lt_succ_self _)
        · exact other answer answers first second (ih answers (Nat.lt_succ_self _))

section Steps

variable {h : ClashHandler σ} {s : σ} {occupied : String → Bool} {answer : String} {answers : List String}

theorem twoNotOne : ("2" : String) ≠ "1" := by decide

theorem runNil : h.run s [] = none := by
  rw [ClashHandler.run]

theorem runOne : h.run s ("1" :: answers) = some (h.replace s, answers) := by
  rw [ClashHandler.run, if_pos rfl]

theorem runTwo : h.run s ("2" :: answers) = (getMachineNum answers).bind fun (id, rest) =>
    if h.occupied (h.assign s id) then h.run (h.assign s id) rest else some (h.assign s id, rest) := by
  rw [ClashHandler.run, if_neg twoNotOne, if_pos rfl]
  split
  · next got => rw [got, Option.bind_none]
  · next got => rw [got, Option.bind_some]

theorem runOther (one : answer ≠ "1") (two : answer ≠ "2") : h.run s (answer :: answers) = h.run s answers := by
  rw [ClashHandler.run, if_neg one, if_neg two]

theorem chosenOne : replaceChosen occupied ("1" :: answers) = true := by
  rw [replaceChosen, if_pos rfl]

theorem chosenTwo {id : String} {rest : List String} (got : getMachineNum answers = some (id, rest)) :
    replaceChosen occupied ("2" :: answers) = (occupied id && replaceChosen occupied rest) := by
  rw [replaceChosen, if_neg twoNotOne, if_pos rfl]
  split
  · next none_ => rw [got] at none_; cases none_
  · next got' => rw [got] at got'; cases got'; rfl

theorem chosenOther (one : answer ≠ "1") (two : answer ≠ "2") :
    replaceChosen occupied (answer :: answers) = replaceChosen occupied answers := by
  rw [replaceChosen, if_neg one, if_neg two]

end Steps

theorem runEnds {h : ClashHandler σ} {inv : σ → Prop} {occupied : String → Bool}
    (assigns : ∀ s id, inv s → inv (h.assign s id) ∧ h.occupied (h.assign s id) = occupied id) {s : σ} (start : inv s)
    (has : h.occupied s = true) {answers rest : List String} {s' : σ} (ran : h.run s answers = some (s', rest)) :
    if replaceChosen occupied answers then ∃ last, inv last ∧ h.occupied last = true ∧ s' = h.replace last
    else inv s' ∧ h.occupied s' = false := by
  induction answers using dialogueInduction generalizing s with
  | nil =>
    rw [runNil] at ran
    cases ran
  | one answers =>
    rw [runOne] at ran
    cases ran
    rw [if_pos chosenOne]
    exact ⟨s, start, has, rfl⟩
  | two answers ih =>
    rw [runTwo] at ran
    obtain ⟨⟨id, more⟩, got, ran⟩ := Option.bind_eq_some_iff.mp ran
    obtain ⟨holds, same⟩ := assigns s id start
    rw [chosenTwo got, ← same]
    dsimp only at ran
    cases again : h.occupied (h.assign s id) with
    | true =>
      rw [if_pos again] at ran
      rw [Bool.true_and]
      exact ih id more got holds again ran
    | false =>
      rw [if_neg (ne_true_of_eq_false again)] at ran
      cases ran
      rw [Bool.false_and, if_neg Bool.false_ne_true]
      exact ⟨holds, again⟩
  | other answer answers one two ih =>
    rw [runOther one two] at ran
    rw [chosenOther one two]
    exact ih start has ran

structure Shows {τ : Type} (h : ClashHandler σ) (h' : ClashHandler τ) (view : σ → τ) (inv : σ → Prop) : Prop where
  replace : ∀ s, inv s → view (h.replace s) = h'.replace (view s) ∧ inv (h.replace s)
  assign : ∀ s id, inv s → view (h.assign s id) = h'.assign (view s) id ∧ inv (h.assign s id)
  occupied : ∀ s, inv s → h.occupied s = h'.occupied (view s)

theorem Shows.run {τ : Type} {h : ClashHandler σ} {h' : ClashHandler τ} {view : σ → τ} {inv : σ → Prop}
    (shows : Shows h h' view inv) {s : σ} (start : inv s) {answers rest : List String} {s' : σ}
    (ran : h.run s answers = some (s', rest)) : h'.run (view s) answers = some (view s', rest) ∧ inv s' := by
  induction answers using dialogueInduction generalizing s with
  | nil =>
    rw [runNil] at ran
    cases ran
  | one answers =>
    obtain ⟨same, holds⟩ := shows.replace s start
    rw [runOne] at ran
    cases ran
    rw [runOne, same]
    exact ⟨rfl, holds⟩
  | two answers ih =>
    rw [runTwo] at ran
    obtain ⟨⟨id, more⟩, got, ran⟩ := Option.bind_eq_some_iff.mp ran
    obtain ⟨same, holds⟩ := shows.assign s id start
    rw [runTwo, got, Option.bind_some]
    dsimp only at ran ⊢
    rw [← same, ← shows.occupied _ holds]
    split at ran
    · next again =>
      rw [if_pos again]
      exact ih id more got holds ran
    · next free =>
      cases ran
      rw [if_neg free]
      exact ⟨rfl, holds⟩
  | other answer answers one two ih =>
    rw [runOther one two] at ran ⊢
    exact ih start ran

end Dialogue

section Layouts

/-- The directories of one test suite: where the results of a Machine-ID are stored, which directories
testing needs there, and the commands that make them. -/
structure Layout (α : Type) where
  upResults : Path
  machineDir : String → Path
  dirs : String → List Path
  make : String → FileTree α → FileTree α
  stored : ∀ id, upResults <+: machineDir id ∧ upResults ≠ machineDir id
  below : ∀ id, ∀ dir ∈ dirs id, machineDir id <+: dir ∧ machineDir id ≠ dir
  needed : ∀ id, dirs id ≠ []
  apart : ∀ id id', id ≠ id' → ∀ q, ¬ machineDir id <+: machineDir id' ++ q
  made : ∀ id t, t.WellFormed →
    ((∀ dir ∈ dirs id, (make id t).isDir dir = true) ↔ ∀ dir ∈ dirs id, t.blocked dir = false)
  kept : ∀ id t q, t q ≠ none → make id t q = t q

abbrev Place (α : Type) := FileTree α × String

variable (l : Layout α)

def Layout.handler : ClashHandler (Place α) where
  replace s := (l.make s.2 (s.1.remove (l.machineDir s.2)), s.2)
  assign s id := (s.1, id)
  occupied s := s.1.isDir (l.machineDir s.2)

def Layout.Clash (t : FileTree α) (id : String) : Prop := t.isDir l.upResults = true ∧ t.isDir (l.machineDir id) = true

instance (t : FileTree α) (id : String) : Decidable (l.Clash t id) := inferInstanceAs (Decidable (_ ∧ _))

def Layout.configure (t : FileTree α) (id : String) (answers : List String) : Option (Place α × List String) :=
  if l.Clash t id then l.handler.run (t, id) answers else some ((l.make id t, id), answers)

def Layout.hasResults (t : FileTree α) (id : String) : Bool := t.isDir (l.machineDir id)

def Layout.replaced (t : FileTree α) (id : String) (answers : List String) (last : String) : Option String :=
  if l.Clash t id ∧ replaceChosen (l.hasResults t) answers then some last else none

def Layout.Clear (t : FileTree α) (id : String) (answers : List String) : Prop :=
  if l.Clash t id then replaceChosen (l.hasResults t) answers = true else t.blocked (l.machineDir id) = false

/-- Every directory needed is there, and nothing is gone of a Machine-ID that was not replaced or outside
the results of this kind. -/
structure Ready (t : FileTree α) (place : Place α) (replaced : Option String) : Prop where
  present : ∀ dir ∈ l.dirs place.2, place.1.isDir dir = true
  kept : ∀ id, replaced ≠ some id → ∀ q, t (l.machineDir id ++ q) ≠ none →
    place.1 (l.machineDir id ++ q) = t (l.machineDir id ++ q)
  elsewhere : ∀ q, (∀ id, ¬ l.machineDir id <+: q) → t q ≠ none → place.1 q = t q

variable {l} {t : FileTree α} (wellFormed : t.WellFormed) {id : String}
include wellFormed

theorem readyFresh (free : t.isDir (l.machineDir id) = false) :
    Ready l t (l.make id t, id) none ↔ t.blocked (l.machineDir id) = false := by
  have alike : ∀ dir ∈ l.dirs id, t.blocked dir = t.blocked (l.machineDir id) := fun dir member =>
    wellFormed.blockedAt free (l.below id dir member).1
  obtain ⟨some_, member⟩ := List.exists_mem_of_ne_nil _ (l.needed id)
  constructor
  · intro ready
    rw [← alike some_ member]
    exact (l.made id t wellFormed).mp ready.present some_ member
  · intro unblocked
    exact ⟨(l.made id t wellFormed).mpr fun dir member => (alike dir member).trans unblocked,
      fun _ _ q there => l.kept id t _ there, fun q _ there => l.kept id t q there⟩

theorem readyReplaced (occupied : t.isDir (l.machineDir id) = true) :
    Ready l t (l.make id (t.remove (l.machineDir id)), id) (some id) := by
  constructor
  · refine (l.made id _ (wellFormed.remove _)).mpr fun dir member => ?_
    exact wellFormed.removedUnblocked (FileTree.isDirIff.mp occupied) (l.below id dir member).1
  · intro other different q there
    have outside := l.apart id other (fun same => different (congrArg some same)) q
    have stays : (t.remove (l.machineDir id)) (l.machineDir other ++ q) = t (l.machineDir other ++ q) :=
      FileTree.removeOutside outside
    dsimp only
    rw [l.kept id _ _ (by rwa [stays]), stays]
  · intro q outside there
    have stays : (t.remove (l.machineDir id)) q = t q := FileTree.removeOutside (outside id)
    dsimp only
    rw [l.kept id _ _ (by rwa [stays]), stays]

theorem notReadyReassigned (free : t.isDir (l.machineDir id) = false) : ¬ Ready l t (t, id) none := by
  intro ready
  obtain ⟨dir, member⟩ := List.exists_mem_of_ne_nil _ (l.needed id)
  obtain ⟨inside, other⟩ := l.below id dir member
  have present : t dir = some .dir := FileTree.isDirIff.mp (ready.present dir member)
  rw [wellFormed.nothingBelow free inside other] at present
  cases present

theorem configuredReady {answers rest : List String} {place : Place α}
    (configured : l.configure t id answers = some (place, rest)) :
    Ready l t place (l.replaced t id answers place.2) ↔ l.Clear t id answers := by
  unfold Layout.configure at configured
  unfold Layout.replaced Layout.Clear
  split at configured
  · next clash =>
    have ends := @runEnds _ l.handler (fun place => place.1 = t) (l.hasResults t)
      (fun last other same => ⟨same, congrArg (FileTree.isDir · (l.machineDir other)) same⟩) (t, id) rfl clash.2 _ _ _ configured
    rw [if_pos clash]
    cases chosen : replaceChosen (l.hasResults t) answers with
    | true =>
      rw [if_pos chosen] at ends
      obtain ⟨⟨tree, last⟩, same, occupied, rfl⟩ := ends
      have tree_ : tree = t := same
      subst tree_
      rw [if_pos ⟨clash, rfl⟩]
      exact ⟨fun _ => rfl, fun _ => readyReplaced wellFormed occupied⟩
    | false =>
      rw [if_neg (ne_true_of_eq_false chosen)] at ends
      obtain ⟨tree, last⟩ := place
      have tree_ : tree = t := ends.1
      subst tree_
      rw [if_neg fun both => Bool.false_ne_true both.2]
      exact ⟨fun ready => absurd ready (notReadyReassigned wellFormed ends.2), nofun⟩
  · next free =>
    cases configured
    rw [if_neg fun both => free both.1, if_neg free]
    refine readyFresh wellFormed (Bool.eq_false_iff.mpr fun occupied => free ⟨?_, occupied⟩)
    have dir := FileTree.isDirIff.mp occupied
    exact FileTree.isDirIff.mpr (wellFormed.above (l.stored id).1 (l.stored id).2 (by
      rw [dir]
      exact Option.some_ne_none _))

end Layouts

section Computational

variable (root : Path)

structure ComputationalPaths where
  machineResultsPath : Path
  parsedResultsPath : Path
  machineSpeedResults : Path
  machineMemResults : Path
  kemMemResults : Path
  sigMemResults : Path

def resultPaths (machineNum : String) : ComputationalPaths :=
  let results := testDataDir root ++ ["up_results", "computational_performance", "machine_" ++ machineNum]
  let memory := results ++ ["mem_results"]
  { machineResultsPath := results
    parsedResultsPath := testDataDir root ++ ["results", "computational_performance", "machine_" ++ machineNum]
    machineSpeedResults := results ++ ["raw_speed_results"]
    machineMemResults := memory
    kemMemResults := memory ++ ["kem_mem_metrics"]
    sigMemResults := memory ++ ["sig_mem_metrics"] }

def ComputationalPaths.dirs (paths : ComputationalPaths) : List Path :=
  [paths.machineSpeedResults, paths.kemMemResults, paths.sigMemResults]

structure Suite (α : Type) where
  tree : FileTree α
  machineNum : String
  paths : ComputationalPaths
  numberOfRuns : String
  parseResults : Bool
  replaceOldResults : Bool

def getTestOptions (answers : List String) : Option (String × String × List String) := do
  let (custom, answers) ← getUserYesNo answers
  let (machineNum, answers) ← if custom then getMachineNum answers else some ("1", answers)
  let (runs, answers) ← getPositive answers
  some (machineNum, runs, answers)

/-- `mkdir -p speed` and `mkdir -p kem && mkdir -p sig` -/
def ComputationalPaths.make (paths : ComputationalPaths) (t : FileTree α) : FileTree α :=
  let t := t.mkdirs paths.machineSpeedResults
  if t.blocked paths.kemMemResults then t.mkdirs paths.kemMemResults
  else (t.mkdirs paths.kemMemResults).mkdirs paths.sigMemResults

def Suite.hasResults (s : Suite α) : Bool := s.tree.isDir s.paths.machineResultsPath

def Suite.handler : ClashHandler (Suite α) where
  replace s := { s with tree := s.paths.make (s.tree.remove s.paths.machineResultsPath) }
  assign s id := { s with machineNum := id, paths := resultPaths root id }
  occupied := Suite.hasResults

def Suite.handleMachineIdClash (s : Suite α) (answers : List String) : Option (Suite α × List String) :=
  (Suite.handler root).run s answers

def Suite.configureUpResults (s : Suite α) (answers : List String) : Option (Suite α × List String) :=
  if s.tree.isDir (testDataDir root ++ ["up_results"]) then
    if s.hasResults then s.handleMachineIdClash root answers
    else some ({ s with tree := s.paths.make s.tree }, answers)
  else some ({ s with tree := s.paths.make s.tree }, answers)

def Suite.configureParsedResults (s : Suite α) (answers : List String) : Option (Suite α × List String) :=
  if s.tree.isDir s.paths.parsedResultsPath then do
    let (replaces, answers) ← getUserYesNo answers
    some (if replaces then { s with replaceOldResults := true } else { s with parseResults := false }, answers)
  else some (s, answers)

def setupTestSuite (tree : FileTree α) (parseResults : Bool) (answers : List String) :
    Option (Suite α × List String) := do
  let (machineNum, runs, answers) ← getTestOptions answers
  let s : Suite α := ⟨tree, machineNum, resultPaths root machineNum, runs, parseResults, false⟩
  let (s, answers) ← s.configureUpResults root answers
  s.configureParsedResults answers

end Computational

section Scripts

variable (root : Path)

def machineFolder (kind id : String) : Path := testDataDir root ++ ["up_results", kind, "machine_" ++ id]

theorem upResultsAbove (kind id : String) : testDataDir root ++ ["up_results"] <+: machineFolder root kind id ∧
    testDataDir root ++ ["up_results"] ≠ machineFolder root kind id := by
  constructor
  · exact (List.prefix_append_right_inj _).mpr ⟨[kind, "machine_" ++ id], rfl⟩
  · intro same
    have lengths := congrArg List.length (List.append_cancel_left same)
    cases lengths

theorem foldersApart (kind : String) {id id' : String} (different : id ≠ id') (q : Path) :
    ¬ machineFolder root kind id <+: machineFolder root kind id' ++ q := by
  intro inside
  rw [machineFolder, machineFolder, List.append_assoc, List.prefix_append_right_inj] at inside
  rw [List.cons_append, List.cons_append, List.cons_append, List.cons_prefix_cons, List.cons_prefix_cons,
    List.cons_prefix_cons] at inside
  have letters := congrArg String.toList inside.2.2.1
  rw [String.toList_append, String.toList_append] at letters
  exact different (String.toList_inj.mp (List.append_cancel_left letters))

theorem belowFolder {folder : Path} (name : String) (more : Path) :
    folder <+: folder ++ name :: more ∧ folder ≠ folder ++ name :: more :=
  ⟨List.prefix_append _ _, fun same => List.cons_ne_nil _ _ (List.append_right_eq_self.mp same.symm)⟩

def tlsLayout : Layout α where
  upResults := testDataDir root ++ ["up_results"]
  machineDir id := (tlsPaths root id).machineResults
  dirs id := (tlsPaths root id).resultDirPaths
  make id t := (tlsPaths root id).resultDirPaths.foldl FileTree.mkdirs t
  stored := upResultsAbove root "tls_performance"
  below id dir member := by
    have folder : ∀ group name, (tlsPaths root id).machineResults <+: (tlsPaths root id).machineResults ++ [group] ++ [name] ∧
        (tlsPaths root id).machineResults ≠ (tlsPaths root id).machineResults ++ [group] ++ [name] := by
      intro group name
      rw [List.append_assoc]
      exact belowFolder group [name]
    simp only [TlsPaths.resultDirPaths, List.mem_cons, List.not_mem_nil, or_false] at member
    rcases member with rfl | rfl | rfl | rfl | rfl
    all_goals exact folder _ _
  needed _ := List.cons_ne_nil _ _
  apart _ _ different := foldersApart root "tls_performance" different
  made _ _ wellFormed := forall₂_congr fun _ member => wellFormed.mkdirsDir member
  kept _ _ _ there := FileTree.mkdirsEachKept _ there

theorem computationalMade (id : String) (t : FileTree α) (wellFormed : t.WellFormed) :
    (∀ dir ∈ (resultPaths root id).dirs, ((resultPaths root id).make t).isDir dir = true) ↔
      ∀ dir ∈ (resultPaths root id).dirs, t.blocked dir = false := by
  generalize resultPaths root id = paths
  unfold ComputationalPaths.make
  dsimp only
  rw [FileTree.mkdirsBlocked]
  cases kem : t.blocked paths.kemMemResults with
  | false =>
    rw [if_neg Bool.false_ne_true]
    exact forall₂_congr fun dir member => @FileTree.WellFormed.mkdirsDir _ _ wellFormed paths.dirs dir member
  | true =>
    have second : paths.kemMemResults ∈ [paths.machineSpeedResults, paths.kemMemResults] :=
      List.mem_cons_of_mem _ List.mem_cons_self
    have listed : paths.kemMemResults ∈ paths.dirs := List.mem_cons_of_mem _ List.mem_cons_self
    rw [if_pos rfl]
    constructor
    · intro made
      have free := (wellFormed.mkdirsDir second).mp (made _ listed)
      rw [kem] at free
      cases free
    · intro free
      rw [free _ listed] at kem
      cases kem

def computationalLayout : Layout α where
  upResults := testDataDir root ++ ["up_results"]
  machineDir id := (resultPaths root id).machineResultsPath
  dirs id := (resultPaths root id).dirs
  make id t := (resultPaths root id).make t
  stored := upResultsAbove root "computational_performance"
  below id dir member := by
    have memory : ∀ name, (resultPaths root id).machineResultsPath <+: (resultPaths root id).machineMemResults ++ [name] ∧
        (resultPaths root id).machineResultsPath ≠ (resultPaths root id).machineMemResults ++ [name] := by
      intro name
      rw [show (resultPaths root id).machineMemResults = (resultPaths root id).machineResultsPath ++ ["mem_results"] from rfl,
        List.append_assoc]
      exact belowFolder "mem_results" [name]
    simp only [ComputationalPaths.dirs, List.mem_cons, List.not_mem_nil, or_false] at member
    rcases member with rfl | rfl | rfl
    · exact belowFolder "raw_speed_results" []
    · exact memory "kem_mem_metrics"
    · exact memory "sig_mem_metrics"
  needed _ := List.cons_ne_nil _ _
  apart _ _ different := foldersApart root "computational_performance" different
  made := computationalMade root
  kept id t q there := by
    have first : (t.mkdirs (resultPaths root id).machineSpeedResults) q = t q := FileTree.mkdirsKept there
    have second : ((t.mkdirs (resultPaths root id).machineSpeedResults).mkdirs (resultPaths root id).kemMemResults) q =
        t q := (FileTree.mkdirsKept (by rwa [first])).trans first
    unfold ComputationalPaths.make
    split
    · exact second
    · exact (FileTree.mkdirsKept (by rwa [second])).trans second

def tlsHandler : ClashHandler (Session α) where
  replace s := Tls.MachineId.makeResultDirs
    { s with tree := s.paths.elim s.tree fun paths => s.tree.remove paths.machineResults }
  assign s id := Tls.MachineId.setTlsPaths root (s.assign id)
  occupied := Session.hasResults

theorem tlsHandles (s : Session α) (answers : List String) :
    Tls.MachineId.handleMachineIdClash root s answers = (tlsHandler root).run s answers := by
  induction answers using dialogueInduction generalizing s with
  | nil => rw [Tls.MachineId.handleMachineIdClash, runNil]
  | one answers =>
    rw [Tls.MachineId.handleMachineIdClash, if_pos rfl, runOne]
    rfl
  | two answers ih =>
    rw [Tls.MachineId.handleMachineIdClash, if_neg twoNotOne, if_pos rfl, runTwo]
    split
    · next got => rw [got, Option.bind_none]
    · next id rest got =>
      rw [got, Option.bind_some]
      change (if (Tls.MachineId.setTlsPaths root (s.assign id)).hasResults = true then _ else _) =
        if (Tls.MachineId.setTlsPaths root (s.assign id)).hasResults = true then _ else _
      split
      · exact ih id rest got _
      · rfl
  | other answer answers one two ih =>
    rw [Tls.MachineId.handleMachineIdClash, if_neg one, if_neg two, runOther one two]
    exact ih s

def tlsPlace (s : Session α) : Place α := (s.tree, s.machineNum)
def suitePlace (s : Suite α) : Place α := (s.tree, s.machineNum)

theorem tlsShows : Shows (tlsHandler root) (tlsLayout (α := α) root).handler tlsPlace
    fun s => s.paths = some (tlsPaths root s.machineNum) where
  replace s paths := by
    have made : (tlsHandler root).replace s = { s with
        tree := (tlsPaths root s.machineNum).resultDirPaths.foldl FileTree.mkdirs
          (s.tree.remove (tlsPaths root s.machineNum).machineResults) } := by
      unfold tlsHandler Tls.MachineId.makeResultDirs
      dsimp only
      rw [paths]
      rfl
    rw [made]
    exact ⟨rfl, paths⟩
  assign _ _ _ := ⟨rfl, rfl⟩
  occupied s paths := by
    change s.paths.elim false _ = _
    rw [paths]
    rfl

theorem suiteShows : Shows (Suite.handler root) (computationalLayout (α := α) root).handler suitePlace
    fun s => s.paths = resultPaths root s.machineNum where
  replace s paths := by
    refine ⟨?_, paths⟩
    unfold Suite.handler suitePlace
    dsimp only
    rw [paths]
    rfl
  assign _ _ _ := ⟨rfl, rfl⟩
  occupied s paths := by
    change s.tree.isDir s.paths.machineResultsPath = _
    rw [paths]
    rfl

theorem tlsConfigures {s s' : Session α} {answers rest : List String}
    (ran : Tls.MachineId.configureUpResults root (Tls.MachineId.setTlsPaths root s) answers = some (s', rest)) :
    (tlsLayout root).configure s.tree s.machineNum answers = some (tlsPlace s', rest) ∧
      s'.paths = some (tlsPaths root s'.machineNum) := by
  have made : some (Tls.MachineId.makeResultDirs (Tls.MachineId.setTlsPaths root s), answers) = some (s', rest) →
      some (((tlsLayout root).make s.machineNum s.tree, s.machineNum), answers) = some (tlsPlace s', rest) ∧
        s'.paths = some (tlsPaths root s'.machineNum) := by
    intro same
    cases same
    exact ⟨rfl, rfl⟩
  unfold Tls.MachineId.configureUpResults at ran
  unfold Layout.configure
  split at ran
  · next up =>
    split at ran
    · next has =>
      rw [tlsHandles] at ran
      rw [if_pos ⟨up, has⟩]
      have start : (Tls.MachineId.setTlsPaths root s).paths = some (tlsPaths root s.machineNum) := rfl
      exact Shows.run (tlsShows root) start ran
    · next free =>
      rw [if_neg fun clash => free clash.2]
      exact made ran
  · next missing =>
    rw [if_neg fun clash => missing clash.1]
    exact made ran

theorem suiteConfigures {s s' : Suite α} {answers rest : List String} (paths : s.paths = resultPaths root s.machineNum)
    (ran : s.configureUpResults root answers = some (s', rest)) :
    (computationalLayout root).configure s.tree s.machineNum answers = some (suitePlace s', rest) ∧
      s'.paths = resultPaths root s'.machineNum := by
  have made : some ({ s with tree := s.paths.make s.tree }, answers) = some (s', rest) →
      some (((computationalLayout root).make s.machineNum s.tree, s.machineNum), answers) = some (suitePlace s', rest) ∧
        s'.paths = resultPaths root s'.machineNum := by
    intro same
    cases same
    rw [paths]
    exact ⟨rfl, rfl⟩
  have has : s.hasResults = s.tree.isDir ((computationalLayout (α := α) root).machineDir s.machineNum) := by
    rw [Suite.hasResults, paths]
    rfl
  unfold Suite.configureUpResults at ran
  unfold Layout.configure
  split at ran
  · next up =>
    split at ran
    · next occupied =>
      rw [if_pos ⟨up, has ▸ occupied⟩]
      exact (suiteShows root).run paths ran
    · next free =>
      rw [if_neg fun clash => free (has ▸ clash.2)]
      exact made ran
  · next missing =>
    rw [if_neg fun clash => missing clash.1]
    exact made ran

theorem tlsParsedKept {s s' : Session α} {answers rest : List String}
    (ran : Tls.MachineId.configureParsedResults root s answers = some (s', rest)) :
    tlsPlace s' = tlsPlace s ∧ s'.paths = s.paths := by
  unfold Tls.MachineId.configureParsedResults at ran
  dsimp only at ran
  split at ran
  · split at ran <;> cases ran <;> exact ⟨rfl, rfl⟩
  · cases ran
    exact ⟨rfl, rfl⟩

theorem suiteParsedKept {s s' : Suite α} {answers rest : List String}
    (ran : s.configureParsedResults answers = some (s', rest)) :
    suitePlace s' = suitePlace s ∧ s'.paths = s.paths := by
  unfold Suite.configureParsedResults at ran
  split at ran
  · simp only [Option.bind_eq_bind, Option.bind_eq_some_iff, Prod.exists] at ran
    obtain ⟨replaces, more, -, same⟩ := ran
    cases same
    cases replaces <;> exact ⟨rfl, rfl⟩
  · cases ran
    exact ⟨rfl, rfl⟩

theorem resultDirsReady (root : Path) :
    (∀ (s s' : Session α) (answers rest : List String), s.tree.WellFormed →
      Tls.MachineId.configureResultsDir root s answers = some (s', rest) →
        s'.paths = some (tlsPaths root s'.machineNum) ∧
          (Ready (tlsLayout root) s.tree (s'.tree, s'.machineNum)
              ((tlsLayout root).replaced s.tree s.machineNum answers s'.machineNum) ↔
            (tlsLayout root).Clear s.tree s.machineNum answers)) ∧
      ∀ (tree : FileTree α) (parse : Bool) (s' : Suite α) (answers rest : List String), tree.WellFormed →
        setupTestSuite root tree parse answers = some (s', rest) →
          s'.paths = resultPaths root s'.machineNum ∧
            ∃ machineNum runs left, getTestOptions answers = some (machineNum, runs, left) ∧
              (Ready (computationalLayout root) tree (s'.tree, s'.machineNum)
                  ((computationalLayout root).replaced tree machineNum left s'.machineNum) ↔
                (computationalLayout root).Clear tree machineNum left) := by
  constructor
  · intro s s' answers rest wellFormed ran
    obtain ⟨⟨mid, left⟩, up, parsed⟩ := Option.bind_eq_some_iff.mp ran
    obtain ⟨configured, paths⟩ := tlsConfigures root up
    obtain ⟨place, same⟩ := tlsParsedKept root parsed
    have num : s'.machineNum = mid.machineNum := congrArg Prod.snd place
    refine ⟨by rw [same, paths, num], ?_⟩
    change Ready _ _ (tlsPlace s') _ ↔ _
    rw [num, place]
    exact configuredReady wellFormed configured
  · intro tree parse s' answers rest wellFormed ran
    obtain ⟨⟨machineNum, runs, given⟩, options, ran⟩ := Option.bind_eq_some_iff.mp ran
    obtain ⟨⟨mid, left⟩, up, parsed⟩ := Option.bind_eq_some_iff.mp ran
    obtain ⟨configured, paths⟩ := suiteConfigures root rfl up
    obtain ⟨place, same⟩ := suiteParsedKept parsed
    have num : s'.machineNum = mid.machineNum := congrArg Prod.snd place
    refine ⟨by rw [same, paths, num], machineNum, runs, given, options, ?_⟩
    change Ready _ _ (suitePlace s') _ ↔ _
    rw [num, place]
    exact configuredReady wellFormed configured

def usedFolder (kind : String) : Path := machineFolder [] kind "1"

def usedTree : FileTree Unit := fun path =>
  if path <+: usedFolder "tls_performance" ∨ path <+: usedFolder "computational_performance" then some .dir else none

theorem usedTreeWellFormed : usedTree.WellFormed := by
  intro path name there
  have below : path ++ [name] <+: usedFolder "tls_performance" ∨
      path ++ [name] <+: usedFolder "computational_performance" := by
    by_contra outside
    exact there (if_neg outside)
  exact if_pos (below.imp (List.prefix_append path [name]).trans (List.prefix_append path [name]).trans)

theorem resultDirsReadyReplaced :
    (∃ s' : Session Unit, Tls.MachineId.configureResultsDir [] (Tls.MachineId.start usedTree true) ["3", "1"] = some (s', []) ∧
        Ready (tlsLayout []) usedTree (s'.tree, "1") (some "1")) ∧
      ∃ s' : Suite Unit, setupTestSuite [] usedTree true ["n", "1", "3", "1"] = some (s', []) ∧
        Ready (computationalLayout []) usedTree (s'.tree, "1") (some "1") := by
  have chosen : ∀ occupied : String → Bool, replaceChosen occupied ["3", "1"] = true := by
    intro occupied
    rw [chosenOther (by decide) (by decide), chosenOne]
  constructor
  · let s := Tls.MachineId.setTlsPaths [] (Tls.MachineId.start usedTree true)
    have handled : Tls.MachineId.handleMachineIdClash [] s ["3", "1"] = some ((tlsHandler []).replace s, []) := by
      rw [tlsHandles, runOther (by decide) (by decide), runOne]
    have ran : Tls.MachineId.configureResultsDir [] (Tls.MachineId.start usedTree true) ["3", "1"] =
        Tls.MachineId.configureParsedResults [] ((tlsHandler []).replace s) [] := by
      change Option.bind (Tls.MachineId.handleMachineIdClash [] s ["3", "1"]) _ = _
      rw [handled]
      rfl
    have ready := ((resultDirsReady []).1 (Tls.MachineId.start usedTree true) _ ["3", "1"] [] usedTreeWellFormed ran).2
    unfold Layout.replaced Layout.Clear at ready
    rw [chosen] at ready
    exact ⟨_, ran, ready.mpr rfl⟩
  · have ran : setupTestSuite [] usedTree true ["n", "1", "3", "1"] =
        some ((Suite.handler []).replace ⟨usedTree, "1", resultPaths [] "1", "1", true, false⟩, []) := by
      change Option.bind ((Suite.handler []).run _ ["3", "1"]) _ = _
      rw [runOther (by decide) (by decide), runOne]
      rfl
    obtain ⟨-, machineNum, runs, left, options, ready⟩ :=
      (resultDirsReady []).2 usedTree true _ ["n", "1", "3", "1"] [] usedTreeWellFormed ran
    cases options
    unfold Layout.replaced Layout.Clear at ready
    rw [chosen] at ready
    exact ⟨_, ran, ready.mpr rfl⟩

theorem reassignedHasNoDirs :
    ¬ (∀ (tree : FileTree Unit) (answers rest : List String) (s' : Session Unit), tree.WellFormed →
        Tls.MachineId.configureResultsDir [] (Tls.MachineId.start tree true) answers = some (s', rest) →
          ∀ dir ∈ (tlsPaths [] s'.machineNum).resultDirPaths, s'.tree.isDir dir = true) ∧
      ¬ ∀ (tree : FileTree Unit) (answers rest : List String) (s' : Suite Unit), tree.WellFormed →
        setupTestSuite [] tree true answers = some (s', rest) →
          ∀ dir ∈ (resultPaths [] s'.machineNum).dirs, s'.tree.isDir dir = true := by
  constructor
  · intro made
    have handled : Tls.MachineId.configureUpResults []
        (Tls.MachineId.setTlsPaths [] (Tls.MachineId.start usedTree true)) ["2", "7"] =
        some (Tls.MachineId.setTlsPaths [] ((Tls.MachineId.setTlsPaths [] (Tls.MachineId.start usedTree true)).assign "7"),
          []) := by
      change Tls.MachineId.handleMachineIdClash [] _ ["2", "7"] = _
      exact Tls.MachineId.handleMachineIdClashReassign rfl (by decide)
    have ran : Tls.MachineId.configureResultsDir [] (Tls.MachineId.start usedTree true) ["2", "7"] = some
        ({ Tls.MachineId.setTlsPaths [] ((Tls.MachineId.setTlsPaths [] (Tls.MachineId.start usedTree true)).assign "7") with
          parsedResultsPath := some ["test_data", "results", "tls_performance", "machine_7"] }, []) := by
      rw [Tls.MachineId.configureResultsDir, handled]
      rfl
    have there := made usedTree _ _ _ usedTreeWellFormed ran _ List.mem_cons_self
    cases there
  · intro made
    have ran : setupTestSuite [] usedTree true ["n", "1", "2", "7"] =
        some (⟨usedTree, "7", resultPaths [] "7", "1", true, false⟩, []) := by
      change Option.bind ((Suite.handler []).run _ ["2", "7"]) _ = _
      rw [runTwo]
      rfl
    have there := made usedTree _ _ _ usedTreeWellFormed ran _ List.mem_cons_self
    cases there

end Scripts

end Armor.Setup
