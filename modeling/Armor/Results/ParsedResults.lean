import Armor.Lib.Decimal
import Armor.Lib.FileTree

/-! The results directory that the two parsers, `performance_data_parse.py` and
`tls_performance_data_parse.py`, share over a sequence of runs. What a parser computes is an input
here; where it writes it, and what it deletes before, is the source's. -/
namespace Armor.Results

inductive Kind where
  | computational
  | tls
  deriving DecidableEq, Repr

def Kind.folder : Kind → String
  | .computational => "computational_performance"
  | .tls => "tls_performance"

def Kind.parsedDirs : Kind → List String
  | .computational => ["speed_results", "mem_results"]
  | .tls => ["handshake_results", "speed_results"]

/-- Looked for in the machine's results, `[]` being the machine's directory itself. -/
def Kind.checkedDirs : Kind → List Path
  | .computational => [["mem_results"], ["speed_results"]]
  | .tls => [[]]

variable {α : Type} (root : Path) (kind : Kind) (machineId : Int)

def resultsDir : Path := root ++ ["test_data", "results", kind.folder]
def upResults : Path := root ++ ["test_data", "up_results", kind.folder]
def machineFolder : String := "machine_" ++ toString machineId
def machResultsDir : Path := resultsDir root kind ++ [machineFolder machineId]
def machUpResultsDir : Path := upResults root kind ++ [machineFolder machineId]
def upSpeedDir : Path := machUpResultsDir root kind machineId ++ ["speed_results"]

def hasOldResults (t : FileTree α) : Bool :=
  kind.checkedDirs.any fun dir => t.exists_ (machResultsDir root kind machineId ++ dir)

def createDirs (t : FileTree α) : FileTree α :=
  kind.parsedDirs.foldl (fun t dir => t.makeDirs (machResultsDir root kind machineId ++ [dir])) t

/-- `shutil.rmtree(results_dir, f"machine_{machine_id}")`: the second argument is `ignore_errors`. -/
def replaceOld (t : FileTree α) : FileTree α := createDirs root kind machineId (t.remove (resultsDir root kind))

inductive Choice where
  | replace
  | exit
  | wait
  deriving DecidableEq, Repr

def getUserChoice : List String → Option Choice
  | [] => none
  | answer :: rest =>
    if answer = "1" then some .replace
    else if answer = "2" then some .exit
    else if answer = "3" then some .wait
    else getUserChoice rest

/-- Option 3. Before an enter the user may have moved the whole folder of the machine away. -/
def waitForMove (t : FileTree α) : List (Option Path) → FileTree α × Bool
  | [] => (t, false)
  | moved :: rest =>
    let t := moved.elim t (t.move (machResultsDir root kind machineId))
    if hasOldResults root kind machineId t then waitForMove t rest
    else (createDirs root kind machineId t, true)

def handleResultsDirCreation (replaceOldResults : Bool) (choices : List String) (presses : List (Option Path))
    (t : FileTree α) : FileTree α × Bool :=
  if hasOldResults root kind machineId t then
    if replaceOldResults then (replaceOld root kind machineId t, true)
    else
      match getUserChoice choices with
      | some .replace => (replaceOld root kind machineId t, true)
      | some .wait => waitForMove root kind machineId t presses
      | some .exit => (t, false)
      | none => (t, false)
  else (createDirs root kind machineId t, true)

/-- One run of a parser: its arguments, the user's answers, the files it writes into the machine's
results and its pre-processed speed files, and whether it completes once the directories are there.
Old results are not moved into a directory where results are parsed. -/
structure Invocation (α : Type) where
  kind : Kind
  machineId : Int
  replaceOldResults : Bool
  choices : List String
  presses : List (Option Path)
  output : FileTree α
  upOutput : FileTree α
  completes : Bool
  apart : ∀ dest, some dest ∈ presses → ∀ kind id q,
    ¬ machResultsDir root kind id <+: dest ++ q ∧ ¬ dest <+: machResultsDir root kind id ++ q

variable {root}

def store (inv : Invocation root α) (t : FileTree α) : FileTree α :=
  let machine := machResultsDir root inv.kind inv.machineId
  match inv.kind with
  | .tls => t.overlay machine inv.output
  | .computational =>
    let upSpeed := upSpeedDir root inv.kind inv.machineId
    (((t.remove upSpeed).makeDirs upSpeed).overlay upSpeed inv.upOutput).overlay machine inv.output

def Invocation.required (inv : Invocation root α) : Path :=
  match inv.kind with
  | .computational => upResults root inv.kind
  | .tls => machUpResultsDir root inv.kind inv.machineId

def processTests (inv : Invocation root α) (t : FileTree α) : FileTree α × Bool :=
  if t.exists_ inv.required then
    let handled := handleResultsDirCreation root inv.kind inv.machineId inv.replaceOldResults inv.choices inv.presses t
    if handled.2 then (store inv handled.1, inv.completes) else (handled.1, false)
  else (t, false)

def freshDirs (kind : Kind) : FileTree α := kind.parsedDirs.foldl (fun t dir => t.makeDirs [dir]) FileTree.empty

def wrote (kind : Kind) (output : FileTree α) : FileTree α := fun q => (output q).or (freshDirs kind q)

structure Archive (α : Type) where
  tree : FileTree α
  lastParse : Kind → Int → Option (FileTree α)

def parse (s : Archive α) (inv : Invocation root α) : Archive α :=
  let processed := processTests inv s.tree
  { tree := processed.1
    lastParse := fun kind id =>
      if processed.2 ∧ kind = inv.kind ∧ id = inv.machineId then some (wrote kind inv.output) else s.lastParse kind id }

def parseAll (start : FileTree α) (runs : List (Invocation root α)) : Archive α :=
  runs.foldl parse ⟨start, fun _ _ => none⟩

def Survives (root : Path) (s : Archive α) : Prop :=
  ∀ kind id written, s.lastParse kind id = some written → s.tree.subtree (machResultsDir root kind id) = written

def Replaces (inv : Invocation root α) (t : FileTree α) : Prop :=
  t.exists_ inv.required = true ∧ hasOldResults root inv.kind inv.machineId t = true ∧
    (inv.replaceOldResults = true ∨ getUserChoice inv.choices = some .replace)

def Framed (inv : Invocation root α) (t : FileTree α) : Prop :=
  ∀ q, ¬ machResultsDir root inv.kind inv.machineId <+: q → ¬ q <+: machResultsDir root inv.kind inv.machineId →
    (handleResultsDirCreation root inv.kind inv.machineId inv.replaceOldResults inv.choices inv.presses t).1 q = t q

def Alone (root : Path) (kind : Kind) (machineId : Int) (t : FileTree α) : Prop :=
  ∀ q, resultsDir root kind <+: q → q ≠ resultsDir root kind → ¬ machResultsDir root kind machineId <+: q → t q = none

def AllSpare (start : FileTree α) (runs : List (Invocation root α)) : Prop :=
  ∀ before inv after, runs = before ++ inv :: after → Replaces inv (parseAll start before).tree →
    Alone root inv.kind inv.machineId (parseAll start before).tree

def GoesOn (inv : Invocation root α) (t : FileTree α) : Prop :=
  t.exists_ inv.required = true ∧ (hasOldResults root inv.kind inv.machineId t = true → inv.replaceOldResults = true ∨
    getUserChoice inv.choices = some .replace ∨ getUserChoice inv.choices = some .wait ∧ ∃ dest, some dest ∈ inv.presses)

def AllFinish (start : FileTree α) (runs : List (Invocation root α)) : Prop :=
  ∀ before inv after, runs = before ++ inv :: after → GoesOn inv (parseAll start before).tree →
    inv.completes = true ∨ (parseAll start before).lastParse inv.kind inv.machineId = none

/-- After every run all parsed results are there, and no run deletes outside its machine's. -/
def Preserved (start : FileTree α) (runs : List (Invocation root α)) : Prop :=
  (∀ before, before <+: runs → Survives root (parseAll start before)) ∧
    ∀ before inv after, runs = before ++ inv :: after → Replaces inv (parseAll start before).tree →
      Framed inv (parseAll start before).tree

section Paths

variable {kind kind' : Kind} {id id' : Int}

theorem machSplit (q : Path) : machResultsDir root kind id ++ q =
    root ++ (["test_data", "results", kind.folder] ++ ([machineFolder id] ++ q)) := by
  simp only [machResultsDir, resultsDir, List.append_assoc]

theorem upSplit : upSpeedDir root kind id =
    root ++ (["test_data", "up_results", kind.folder] ++ ([machineFolder id] ++ ["speed_results"])) := by
  simp only [upSpeedDir, machUpResultsDir, upResults, List.append_assoc]

theorem resultsPrefix {q : Path} (below : resultsDir root kind <+: machResultsDir root kind' id' ++ q) : kind = kind' := by
  rw [machSplit, resultsDir, List.prefix_append_right_inj] at below
  have folders : kind.folder = kind'.folder := by
    simpa using below
  cases kind <;> cases kind' <;> first | rfl | exact absurd folders (by decide)

theorem machPrefix {q : Path} (below : machResultsDir root kind id <+: machResultsDir root kind' id' ++ q) :
    kind = kind' ∧ id = id' := by
  have same : kind = kind' := resultsPrefix ((List.prefix_append _ _).trans below)
  subst same
  rw [machResultsDir, machResultsDir, List.append_assoc, List.prefix_append_right_inj, List.singleton_append,
    List.cons_prefix_cons] at below
  have letters := congrArg String.toList below.1
  rw [machineFolder, machineFolder, String.toList_append, String.toList_append] at letters
  exact ⟨rfl, Decimal.intInj (String.toList_inj.mp (List.append_cancel_left letters))⟩

theorem machApart (other : ¬ (kind' = kind ∧ id' = id)) (q : Path) :
    ¬ machResultsDir root kind id <+: machResultsDir root kind' id' ++ q := by
  intro below
  have same := machPrefix below
  exact other ⟨same.1.symm, same.2.symm⟩

theorem machInResults : resultsDir root kind <+: machResultsDir root kind id := List.prefix_append _ _

theorem machLength : (machResultsDir root kind id).length = root.length + 4 := by
  simp only [machResultsDir, resultsDir, List.length_append, List.length_cons, List.length_nil]

theorem machNotParent {q dirs : Path} (parent : machResultsDir root kind' id' ++ q <+: machResultsDir root kind id ++ dirs) :
    kind' = kind ∧ id' = id :=
  machPrefix ((List.prefix_append _ _).trans parent)

theorem upApart {q : Path} : ¬ upSpeedDir root kind id <+: machResultsDir root kind' id' ++ q := by
  intro below
  rw [machSplit, upSplit, List.prefix_append_right_inj] at below
  simp at below

theorem upNotParent {q : Path} : ¬ machResultsDir root kind' id' ++ q <+: upSpeedDir root kind id := by
  intro below
  rw [machSplit, upSplit, List.prefix_append_right_inj] at below
  simp at below

end Paths

section Handling

variable {kind kind' : Kind} {id id' : Int} {t : FileTree α}

theorem createDirsSubtree (bare : t.subtree (machResultsDir root kind id) = FileTree.empty) :
    (createDirs root kind id t).subtree (machResultsDir root kind id) = freshDirs kind := by
  rw [createDirs, FileTree.makeEachSubtree, bare]
  rfl

theorem createDirsOther (other : ¬ (kind' = kind ∧ id' = id)) :
    (createDirs root kind id t).subtree (machResultsDir root kind' id') = t.subtree (machResultsDir root kind' id') := by
  funext q
  refine FileTree.makeEachOther (fun parent => ?_) (machApart other q)
  rw [← List.append_nil (machResultsDir root kind id)] at parent
  exact other (machNotParent parent)

theorem replaceOldSubtree : (replaceOld root kind id t).subtree (machResultsDir root kind id) = freshDirs kind :=
  createDirsSubtree (FileTree.removeSubtreeInside (List.prefix_append _ _))

theorem replaceOldOther (other : ¬ (kind' = kind ∧ id' = id)) (alone : Alone root kind id t) :
    (replaceOld root kind id t).subtree (machResultsDir root kind' id') = t.subtree (machResultsDir root kind' id') := by
  rw [replaceOld, createDirsOther other]
  by_cases same : kind = kind'
  · subst same
    rw [FileTree.removeSubtreeInside machInResults]
    funext q
    refine (alone _ (machInResults.trans (List.prefix_append _ _)) (fun same => ?_) (machApart other q)).symm
    have lengths := congrArg List.length same
    rw [List.length_append, machLength, resultsDir, List.length_append] at lengths
    change root.length + 4 + q.length = root.length + 3 at lengths
    omega
  · exact FileTree.removeSubtreeOutside fun q below => same (resultsPrefix below)

def Whole (kind : Kind) (results : FileTree α) : Prop :=
  results = FileTree.empty ∨ (kind.checkedDirs.any fun dir => results.exists_ dir) = true

theorem wholeBare (whole : Whole kind (t.subtree (machResultsDir root kind id)))
    (fresh : hasOldResults root kind id t = false) : t.subtree (machResultsDir root kind id) = FileTree.empty := by
  cases whole with
  | inl bare => exact bare
  | inr old => exact absurd (old.symm.trans fresh) (by decide)

theorem wroteWhole (output : FileTree α) : Whole kind (wrote kind output) := by
  refine .inr ?_
  have made : (kind.checkedDirs.any fun dir => (freshDirs kind : FileTree α).exists_ dir) = true := by
    cases kind <;> rfl
  obtain ⟨dir, member, present⟩ := List.any_eq_true.mp made
  refine List.any_eq_true.mpr ⟨dir, member, ?_⟩
  rw [FileTree.exists_] at present ⊢
  rw [wrote, Option.isSome_or, present, Bool.or_true]

end Handling

section Runs

variable {inv : Invocation root α} {t : FileTree α} {kind : Kind} {id : Int}

theorem moveSubtree {dest : Path} (apart : ∀ kind id q,
      ¬ machResultsDir root kind id <+: dest ++ q ∧ ¬ dest <+: machResultsDir root kind id ++ q) :
    (t.move (machResultsDir root kind id) dest).subtree (machResultsDir root kind id) = FileTree.empty ∧
      ∀ kind' id', ¬ (kind' = kind ∧ id' = id) → (t.move (machResultsDir root kind id) dest).subtree
        (machResultsDir root kind' id') = t.subtree (machResultsDir root kind' id') := by
  constructor
  · rw [FileTree.move, FileTree.graftSubtreeOutside fun q => (apart kind id q).2]
    exact FileTree.removeSubtreeInside (List.prefix_refl _)
  · intro kind' id' other
    rw [FileTree.move, FileTree.graftSubtreeOutside fun q => (apart kind' id' q).2]
    exact FileTree.removeSubtreeOutside (machApart other)

theorem bareFresh (bare : t.subtree (machResultsDir root kind id) = FileTree.empty) :
    hasOldResults root kind id t = false := by
  refine List.any_eq_false.mpr fun dir member => ?_
  rw [FileTree.existsSubtree, bare]
  exact Bool.false_ne_true

structure Handled (root : Path) (kind : Kind) (id : Int) (t : FileTree α) (result : FileTree α × Bool) : Prop where
  stopped : result.2 = false → result.1 = t
  made : result.2 = true → result.1.subtree (machResultsDir root kind id) = freshDirs kind
  others : ∀ kind' id', ¬ (kind' = kind ∧ id' = id) →
    result.1.subtree (machResultsDir root kind' id') = t.subtree (machResultsDir root kind' id')

theorem waitHandled (old : hasOldResults root kind id t = true) {presses : List (Option Path)}
    (apart : ∀ dest, some dest ∈ presses → ∀ kind id q,
      ¬ machResultsDir root kind id <+: dest ++ q ∧ ¬ dest <+: machResultsDir root kind id ++ q) :
    Handled root kind id t (waitForMove root kind id t presses) := by
  induction presses with
  | nil => exact ⟨fun _ => rfl, nofun, fun _ _ _ => rfl⟩
  | cons moved rest ih =>
    have later := ih fun dest member => apart dest (List.mem_cons_of_mem _ member)
    cases moved with
    | none =>
      rw [waitForMove, Option.elim_none, if_pos old]
      exact later
    | some dest =>
      have away := @moveSubtree α root t kind id dest (apart dest List.mem_cons_self)
      rw [waitForMove, Option.elim_some, if_neg (ne_true_of_eq_false (bareFresh away.1))]
      refine ⟨nofun, fun _ => createDirsSubtree away.1, fun kind' id' other => ?_⟩
      rw [createDirsOther other, away.2 kind' id' other]

theorem waitMoved (old : hasOldResults root kind id t = true) {presses : List (Option Path)}
    (goesOn : (waitForMove root kind id t presses).2 = true) : ∃ dest, some dest ∈ presses := by
  induction presses with
  | nil => cases goesOn
  | cons moved rest ih =>
    cases moved with
    | none =>
      rw [waitForMove, Option.elim_none, if_pos old] at goesOn
      obtain ⟨dest, member⟩ := ih goesOn
      exact ⟨dest, List.mem_cons_of_mem _ member⟩
    | some dest => exact ⟨dest, List.mem_cons_self⟩

theorem handleGoesOn (present : t.exists_ inv.required = true)
    (goesOn : (handleResultsDirCreation root inv.kind inv.machineId inv.replaceOldResults inv.choices inv.presses t).2 = true) :
    GoesOn inv t := by
  refine ⟨present, fun old => ?_⟩
  rw [handleResultsDirCreation, if_pos old] at goesOn
  split at goesOn
  · next flag => exact .inl flag
  · split at goesOn
    · next chosen => exact .inr (.inl chosen)
    · next chosen => exact .inr (.inr ⟨chosen, waitMoved old goesOn⟩)
    · cases goesOn
    · cases goesOn

theorem replaceHandled (alone : Alone root kind id t) : Handled root kind id t (replaceOld root kind id t, true) :=
  ⟨nofun, fun _ => replaceOldSubtree, fun _ _ other => replaceOldOther other alone⟩

theorem exitHandled : Handled root kind id t (t, false) :=
  ⟨fun _ => rfl, nofun, fun _ _ _ => rfl⟩

theorem handleHandled (whole : Whole inv.kind (t.subtree (machResultsDir root inv.kind inv.machineId)))
    (present : t.exists_ inv.required = true) (spares : Replaces inv t → Alone root inv.kind inv.machineId t) :
    Handled root inv.kind inv.machineId t
      (handleResultsDirCreation root inv.kind inv.machineId inv.replaceOldResults inv.choices inv.presses t) := by
  unfold handleResultsDirCreation
  cases old : hasOldResults root inv.kind inv.machineId t with
  | false =>
    rw [if_neg Bool.false_ne_true]
    have bare := wholeBare whole old
    exact ⟨nofun, fun _ => createDirsSubtree bare, fun _ _ other => createDirsOther other⟩
  | true =>
    rw [if_pos rfl]
    split
    · next flag => exact replaceHandled (spares ⟨present, old, .inl flag⟩)
    · split
      · next chosen => exact replaceHandled (spares ⟨present, old, .inr chosen⟩)
      · exact waitHandled old inv.apart
      · exact exitHandled
      · exact exitHandled

theorem storeSubtree {t : FileTree α} (made : t.subtree (machResultsDir root inv.kind inv.machineId) = freshDirs inv.kind) :
    (store inv t).subtree (machResultsDir root inv.kind inv.machineId) = wrote inv.kind inv.output := by
  unfold store
  dsimp only
  split
  · rw [FileTree.overlaySubtree, made]
    rfl
  · rw [FileTree.overlaySubtree, FileTree.overlaySubtreeOutside fun _ => upApart,
      FileTree.makeDirsSubtreeOther fun _ => upNotParent, FileTree.removeSubtreeOutside fun _ => upApart, made]
    rfl

theorem storeOther {kind' : Kind} {id' : Int} (other : ¬ (kind' = inv.kind ∧ id' = inv.machineId)) :
    (store inv t).subtree (machResultsDir root kind' id') = t.subtree (machResultsDir root kind' id') := by
  unfold store
  dsimp only
  split
  · exact FileTree.overlaySubtreeOutside (machApart other)
  · rw [FileTree.overlaySubtreeOutside (machApart other), FileTree.overlaySubtreeOutside fun _ => upApart,
      FileTree.makeDirsSubtreeOther fun _ => upNotParent, FileTree.removeSubtreeOutside fun _ => upApart]

structure BesidePath (root : Path) (kind : Kind) (id : Int) (q : Path) : Prop where
  under : resultsDir root kind <+: q
  differ : q ≠ resultsDir root kind
  below : ¬ machResultsDir root kind id <+: q

theorem BesidePath.above {q : Path} (beside : BesidePath root kind id q) : ¬ q <+: machResultsDir root kind id := by
  intro above
  cases List.prefix_concat_iff.mp above with
  | inl same => exact beside.below (same ▸ List.prefix_refl _)
  | inr above => exact beside.differ (above.eq_of_length (Nat.le_antisymm above.length_le beside.under.length_le))

theorem replaceFramed (replaces : Replaces inv t) :
    Framed inv t ↔ Alone root inv.kind inv.machineId t := by
  have handled : handleResultsDirCreation root inv.kind inv.machineId inv.replaceOldResults inv.choices inv.presses t =
      (replaceOld root inv.kind inv.machineId t, true) := by
    obtain ⟨present, old, chosen⟩ := replaces
    rw [handleResultsDirCreation, if_pos old]
    split
    · rfl
    · next flag =>
      have chosen := chosen.resolve_left flag
      rw [chosen]
  have outside : ∀ q, ¬ machResultsDir root inv.kind inv.machineId <+: q →
      ¬ q <+: machResultsDir root inv.kind inv.machineId →
      replaceOld root inv.kind inv.machineId t q = t.remove (resultsDir root inv.kind) q := by
    intro q below above
    exact FileTree.makeEachOther above below
  unfold Framed
  rw [handled]
  dsimp only
  constructor
  · intro framed q under differ below
    have above : ¬ q <+: machResultsDir root inv.kind inv.machineId := BesidePath.above ⟨under, differ, below⟩
    rw [← framed q below above, outside q below above]
    exact FileTree.removeInside under
  · intro alone q below above
    rw [outside q below above]
    by_cases under : resultsDir root inv.kind <+: q
    · rw [FileTree.removeInside under]
      refine (alone q under (fun same => above ?_) below).symm
      rw [same]
      exact machInResults
    · exact FileTree.removeOutside under

theorem processCases (whole : Whole inv.kind (t.subtree (machResultsDir root inv.kind inv.machineId)))
    (spares : Replaces inv t → Alone root inv.kind inv.machineId t) :
    processTests inv t = (t, false) ∨ GoesOn inv t ∧ (processTests inv t).2 = inv.completes ∧
      (processTests inv t).1.subtree (machResultsDir root inv.kind inv.machineId) = wrote inv.kind inv.output ∧
      ∀ kind' id', ¬ (kind' = inv.kind ∧ id' = inv.machineId) → (processTests inv t).1.subtree
        (machResultsDir root kind' id') = t.subtree (machResultsDir root kind' id') := by
  unfold processTests
  cases present : t.exists_ inv.required with
  | false =>
    rw [if_neg Bool.false_ne_true]
    exact .inl rfl
  | true =>
    rw [if_pos rfl]
    dsimp only
    have handled := handleHandled whole present spares
    have comes := handleGoesOn present
    generalize handleResultsDirCreation root inv.kind inv.machineId inv.replaceOldResults inv.choices inv.presses t =
      result at handled comes
    obtain ⟨t', goesOn⟩ := result
    cases goesOn with
    | false =>
      rw [if_neg Bool.false_ne_true]
      exact .inl (congrArg (fun t => (t, false)) (handled.stopped rfl))
    | true =>
      rw [if_pos rfl]
      refine .inr ⟨comes rfl, rfl, storeSubtree (handled.made rfl), fun kind' id' other => ?_⟩
      exact (storeOther other).trans (handled.others kind' id' other)

structure Intact (root : Path) (s : Archive α) : Prop where
  survives : Survives root s
  whole : ∀ kind id, Whole kind (s.tree.subtree (machResultsDir root kind id))

theorem parseIntact {s : Archive α} (intact : Intact root s)
    (spares : Replaces inv s.tree → Alone root inv.kind inv.machineId s.tree)
    (finishes : GoesOn inv s.tree → inv.completes = true ∨ s.lastParse inv.kind inv.machineId = none) :
    Intact root (parse s inv) := by
  cases processCases (intact.whole inv.kind inv.machineId) spares with
  | inl stopped =>
    have same : parse s inv = s := by
      unfold parse
      rw [stopped]
      dsimp only
      simp only [Bool.false_eq_true, false_and, if_false]
    rw [same]
    exact intact
  | inr parsed =>
    obtain ⟨goesOn, completed, made, others⟩ := parsed
    constructor
    · intro kind id written last
      unfold parse at last ⊢
      dsimp only at last ⊢
      rw [completed] at last
      by_cases own : kind = inv.kind ∧ id = inv.machineId
      · obtain ⟨rfl, rfl⟩ := own
        rw [made]
        cases finishes goesOn with
        | inl completes =>
          rw [if_pos ⟨completes, rfl, rfl⟩] at last
          exact Option.some.inj last
        | inr first =>
          split at last
          · exact Option.some.inj last
          · cases first.symm.trans last
      · rw [if_neg fun both => own both.2] at last
        rw [others kind id own]
        exact intact.survives kind id written last
    · intro kind id
      change Whole kind ((processTests inv s.tree).1.subtree _)
      by_cases own : kind = inv.kind ∧ id = inv.machineId
      · obtain ⟨rfl, rfl⟩ := own
        rw [made]
        exact wroteWhole inv.output
      · rw [others kind id own]
        exact intact.whole kind id

theorem parseAllSnoc (start : FileTree α) (before : List (Invocation root α)) (inv : Invocation root α) :
    parseAll start (before ++ [inv]) = parse (parseAll start before) inv := by
  rw [parseAll, List.foldl_append]
  rfl

theorem parseAllIntact {start : FileTree α} {runs : List (Invocation root α)}
    (bare : ∀ kind id, start.subtree (machResultsDir root kind id) = FileTree.empty)
    (spare : AllSpare start runs) (finish : AllFinish start runs) {before : List (Invocation root α)}
    (begins : before <+: runs) : Intact root (parseAll start before) := by
  induction before using List.reverseRecOn with
  | nil => exact ⟨fun kind id written last => (nomatch last), fun kind id => .inl (bare kind id)⟩
  | append_singleton before inv ih =>
    obtain ⟨after, same⟩ := begins
    have here : runs = before ++ inv :: after := by
      rw [← same, List.append_assoc]
      rfl
    rw [parseAllSnoc]
    exact parseIntact (ih ⟨inv :: after, here.symm⟩) (spare before inv after here) (finish before inv after here)

end Runs

theorem parsedResultsSurvive (root : Path) (start : FileTree α)
    (bare : ∀ kind id, start.subtree (machResultsDir root kind id) = FileTree.empty)
    (runs : List (Invocation root α)) :
    (AllSpare start runs ∧ AllFinish start runs → Preserved start runs) ∧ (Preserved start runs → AllSpare start runs) := by
  constructor
  · rintro ⟨spare, finish⟩
    refine ⟨fun before begins => (parseAllIntact bare spare finish begins).survives, ?_⟩
    intro before inv after here replaces
    exact (replaceFramed replaces).mpr (spare before inv after here replaces)
  · intro preserved before inv after here replaces
    exact (replaceFramed replaces).mp (preserved.2 before inv after here replaces)

section Beside

variable {inv : Invocation root α} {t : FileTree α} {kind : Kind} {id : Int} {q : Path}

theorem BesidePath.apart (beside : BesidePath root kind id q) (own : inv.kind = kind → inv.machineId = id) :
    ¬ machResultsDir root inv.kind inv.machineId <+: q ∧ ¬ q <+: machResultsDir root inv.kind inv.machineId := by
  by_cases same : inv.kind = kind
  · rw [own same, same]
    exact ⟨beside.below, beside.above⟩
  · constructor
    · intro below
      have shorter : (resultsDir root kind).length ≤ (machResultsDir root inv.kind inv.machineId).length := by
        rw [machLength, resultsDir, List.length_append]
        exact Nat.add_le_add_left (by decide : 3 ≤ 4) _
      have inside := List.prefix_of_prefix_length_le beside.under below shorter
      rw [← List.append_nil (machResultsDir root inv.kind inv.machineId)] at inside
      exact same (resultsPrefix inside).symm
    · intro above
      have inside := beside.under.trans above
      rw [← List.append_nil (machResultsDir root inv.kind inv.machineId)] at inside
      exact same (resultsPrefix inside).symm

theorem storeBeside (beside : BesidePath root kind id q) (own : inv.kind = kind → inv.machineId = id) :
    store inv t q = t q := by
  obtain ⟨below, -⟩ := beside.apart own
  obtain ⟨rest, rfl⟩ := beside.under
  have up : ¬ upSpeedDir root inv.kind inv.machineId <+: resultsDir root kind ++ rest := by
    intro inside
    rw [upSplit, resultsDir, List.append_assoc, List.prefix_append_right_inj] at inside
    simp at inside
  have upAbove : ¬ resultsDir root kind ++ rest <+: upSpeedDir root inv.kind inv.machineId := by
    intro inside
    rw [upSplit, resultsDir, List.append_assoc, List.prefix_append_right_inj] at inside
    simp at inside
  obtain ⟨invKind, machineId, replaceOldResults, choices, presses, output, upOutput, completes, apart⟩ := inv
  cases invKind with
  | tls => exact if_neg below
  | computational =>
    exact (if_neg below).trans ((if_neg up).trans ((FileTree.makeDirsOther upAbove).trans (FileTree.removeOutside up)))

theorem handleBeside (beside : BesidePath root kind id q) (own : inv.kind = kind → inv.machineId = id)
    (still : ∀ dest, some dest ∉ inv.presses) (free : t q = none) :
    (handleResultsDirCreation root inv.kind inv.machineId inv.replaceOldResults inv.choices inv.presses t).1 q = none := by
  obtain ⟨below, above⟩ := beside.apart own
  have created : ∀ t' : FileTree α, t' q = none → createDirs root inv.kind inv.machineId t' q = none :=
    fun t' free' => (FileTree.makeEachOther above below).trans free'
  have replaced : replaceOld root inv.kind inv.machineId t q = none := by
    refine created _ ?_
    unfold FileTree.remove
    split
    · rfl
    · exact free
  have waited : ∀ presses : List (Option Path), (∀ dest, some dest ∉ presses) →
      (waitForMove root inv.kind inv.machineId t presses).1 q = none := by
    intro presses still
    induction presses with
    | nil => exact free
    | cons moved rest ih =>
      cases moved with
      | none =>
        rw [waitForMove, Option.elim_none]
        split
        · exact ih fun dest member => still dest (List.mem_cons_of_mem _ member)
        · exact created t free
      | some dest => exact absurd List.mem_cons_self (still dest)
  unfold handleResultsDirCreation
  split
  · split
    · exact replaced
    · split
      · exact replaced
      · exact waited inv.presses still
      · exact free
      · exact free
  · exact created t free

theorem processAlone (own : inv.kind = kind → inv.machineId = id) (still : ∀ dest, some dest ∉ inv.presses)
    (alone : Alone root kind id t) : Alone root kind id (processTests inv t).1 := by
  intro q under differ below
  have beside : BesidePath root kind id q := ⟨under, differ, below⟩
  have handled := handleBeside beside own still (alone q under differ below)
  unfold processTests
  split
  · dsimp only
    split
    · exact (storeBeside beside own).trans handled
    · exact handled
  · exact alone q under differ below

end Beside

def upTree : FileTree Unit := fun q =>
  if q ∈ [["test_data", "up_results", "computational_performance"],
    ["test_data", "up_results", "tls_performance", "machine_1"],
    ["test_data", "up_results", "tls_performance", "machine_2"]] then some .dir else none

def parseRun (kind : Kind) (machineId : Int) (replaceOldResults : Bool) (name : String) : Invocation [] Unit where
  kind := kind
  machineId := machineId
  replaceOldResults := replaceOldResults
  choices := []
  presses := []
  output := fun q => if q = [name] then some (.file ()) else none
  upOutput := fun q => if q = [name] then some (.file ()) else none
  completes := true
  apart := nofun

theorem upTreeBare (kind : Kind) (id : Int) : upTree.subtree (machResultsDir [] kind id) = FileTree.empty := by
  funext q
  refine (if_neg ?_ : upTree (machResultsDir [] kind id ++ q) = none)
  simp [machResultsDir, resultsDir]

theorem upTreeAlone (kind : Kind) (id : Int) : Alone [] kind id upTree := by
  rintro q ⟨rest, rfl⟩ - -
  refine if_neg ?_
  simp [resultsDir]

def threeRuns : List (Invocation [] Unit) :=
  [parseRun .computational 1 false "mem_avg.csv", parseRun .tls 2 false "speed_avg.csv",
    parseRun .computational 1 true "kem_avg.csv"]

theorem parsedResultsSurviveThree : Preserved upTree threeRuns := by
  refine (parsedResultsSurvive [] upTree upTreeBare threeRuns).1 ⟨?_, ?_⟩
  · intro before inv after here replaces
    rcases before with _ | ⟨first, _ | ⟨second, _ | ⟨third, _ | ⟨fourth, before⟩⟩⟩⟩
    · cases here
      exact absurd replaces.2.1 (by decide)
    · cases here
      exact absurd replaces.2.1 (by decide)
    · cases here
      exact processAlone nofun nofun (processAlone (fun _ => rfl) nofun (upTreeAlone .computational 1))
    · cases here
    · cases here
  · intro before inv after here _
    have member : inv ∈ threeRuns := here ▸ List.mem_append_right _ List.mem_cons_self
    have completes : ∀ inv ∈ threeRuns, inv.completes = true := by simp [threeRuns, parseRun]
    exact .inl (completes inv member)

theorem otherMachineDeleted : ¬ ∀ start : FileTree Unit,
    (∀ kind id, start.subtree (machResultsDir [] kind id) = FileTree.empty) →
      ∀ runs : List (Invocation [] Unit), Preserved start runs := by
  intro preserved
  have survives := (preserved upTree upTreeBare [parseRun .computational 1 false "mem_avg.csv",
    parseRun .computational 2 false "mem_avg.csv", parseRun .computational 1 true "mem_avg.csv"]).1 _ (List.prefix_refl _)
  have kept := congrFun (survives .computational 2 _ rfl) []
  have deleted : (parseAll upTree [parseRun .computational 1 false "mem_avg.csv",
      parseRun .computational 2 false "mem_avg.csv", parseRun .computational 1 true "mem_avg.csv"]).tree
        (machResultsDir [] .computational 2) = none := by decide
  have written : wrote .computational (parseRun .computational 2 false "mem_avg.csv").output [] = some .dir := by decide
  exact absurd (deleted.symm.trans (kept.trans written)) (by decide)

end Armor.Results
