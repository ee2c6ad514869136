import Mathlib.Data.List.Induction
import Mathlib.Data.List.Infix

/-! A file tree as a map from paths to nodes, with the operations of a shell and of Python's `os`
and `shutil` on whole directories. -/
namespace Armor

abbrev Path := List String

inductive Node (α : Type) where
  | dir
  | file (content : α)
  deriving DecidableEq, Repr

abbrev FileTree (α : Type) := Path → Option (Node α)

namespace FileTree

variable {α : Type}

def empty : FileTree α := fun _ => none

def isDir (t : FileTree α) (path : Path) : Bool :=
  match t path with
  | some .dir => true
  | _ => false

def isFile (t : FileTree α) (path : Path) : Bool :=
  match t path with
  | some (.file _) => true
  | _ => false

def blocked (t : FileTree α) (path : Path) : Bool := path.inits.any t.isFile

def exists_ (t : FileTree α) (path : Path) : Bool := (t path).isSome

/-- `rm -rf path`, `shutil.rmtree(path, ignore_errors=True)` -/
def remove (t : FileTree α) (path : Path) : FileTree α := fun q => if path <+: q then none else t q

/-- `os.makedirs(path)` where no regular file stands in the way: the missing directories of the path. -/
def makeDirs (t : FileTree α) (path : Path) : FileTree α := fun q =>
  if q <+: path ∧ t q = none then some .dir else t q

/-- `mkdir -p path`: the missing directories, as far as no regular file stands in the way. -/
def mkdirs (t : FileTree α) (path : Path) : FileTree α := fun q =>
  if q <+: path ∧ t q = none ∧ t.blocked q = false then some .dir else t q

def WellFormed (t : FileTree α) : Prop := ∀ path name, t (path ++ [name]) ≠ none → t path = some .dir

def subtree (t : FileTree α) (path : Path) : FileTree α := fun q => t (path ++ q)

def graft (t : FileTree α) (path : Path) (below : FileTree α) : FileTree α := fun q =>
  if path <+: q then below (q.drop path.length) else t q

def overlay (t : FileTree α) (path : Path) (new : FileTree α) : FileTree α := fun q =>
  if path <+: q then (new (q.drop path.length)).or (t q) else t q

def move (t : FileTree α) (path dest : Path) : FileTree α := (t.remove path).graft dest (t.subtree path)

theorem removeInside {t : FileTree α} {path q : Path} (inside : path <+: q) : t.remove path q = none := if_pos inside

theorem removeOutside {t : FileTree α} {path q : Path} (outside : ¬ path <+: q) : t.remove path q = t q :=
  if_neg outside

theorem makeDirsOther {t : FileTree α} {path q : Path} (other : ¬ q <+: path) : t.makeDirs path q = t q :=
  if_neg fun both => other both.1

theorem graftOutside {t below : FileTree α} {path q : Path} (outside : ¬ path <+: q) : t.graft path below q = t q :=
  if_neg outside

theorem removeSubtreeOutside {t : FileTree α} {path other : Path} (apart : ∀ q, ¬ path <+: other ++ q) :
    (t.remove path).subtree other = t.subtree other := by
  funext q
  exact removeOutside (apart q)

theorem graftSubtreeOutside {t below : FileTree α} {path other : Path} (apart : ∀ q, ¬ path <+: other ++ q) :
    (t.graft path below).subtree other = t.subtree other := by
  funext q
  exact graftOutside (apart q)

theorem removeSubtreeInside {t : FileTree α} {path other : Path} (inside : path <+: other) :
    (t.remove path).subtree other = empty := by
  funext q
  exact removeInside (inside.trans (List.prefix_append _ _))

theorem makeDirsSubtree (t : FileTree α) (path dirs : Path) :
    (t.makeDirs (path ++ dirs)).subtree path = (t.subtree path).makeDirs dirs := by
  funext q
  simp only [subtree, makeDirs, List.prefix_append_right_inj]
  congr

theorem makeDirsSubtreeOther {t : FileTree α} {path other : Path} (apart : ∀ q, ¬ other ++ q <+: path) :
    (t.makeDirs path).subtree other = t.subtree other := by
  funext q
  exact makeDirsOther (apart q)

theorem makeEachSubtree (dirs : List String) (t : FileTree α) (path : Path) :
    (dirs.foldl (fun t dir => t.makeDirs (path ++ [dir])) t).subtree path =
      dirs.foldl (fun t dir => t.makeDirs [dir]) (t.subtree path) := by
  induction dirs generalizing t with
  | nil => rfl
  | cons dir dirs ih =>
    rw [List.foldl_cons, List.foldl_cons, ih, makeDirsSubtree]

theorem makeEachOther {dirs : List String} {t : FileTree α} {path q : Path} (above : ¬ q <+: path)
    (below : ¬ path <+: q) : dirs.foldl (fun t dir => t.makeDirs (path ++ [dir])) t q = t q := by
  induction dirs generalizing t with
  | nil => rfl
  | cons dir dirs ih =>
    rw [List.foldl_cons, ih]
    refine makeDirsOther fun parent => ?_
    cases List.prefix_concat_iff.mp parent with
    | inl same => exact below (same ▸ List.prefix_append _ _)
    | inr parent => exact above parent

theorem overlaySubtree (t new : FileTree α) (path : Path) :
    (t.overlay path new).subtree path = fun q => (new q).or (t.subtree path q) := by
  funext q
  rw [subtree, overlay, if_pos (List.prefix_append path q), List.drop_left]
  rfl

theorem overlaySubtreeOutside {t new : FileTree α} {path other : Path} (apart : ∀ q, ¬ path <+: other ++ q) :
    (t.overlay path new).subtree other = t.subtree other := by
  funext q
  exact if_neg (apart q)

theorem existsSubtree (t : FileTree α) (path q : Path) : t.exists_ (path ++ q) = (t.subtree path).exists_ q := rfl

theorem blockedIff {t : FileTree α} {path : Path} : t.blocked path = true ↔ ∃ q, q <+: path ∧ t.isFile q = true := by
  rw [blocked, List.any_eq_true]
  simp only [List.mem_inits]

theorem blockedBelow {t : FileTree α} {path q : Path} (above : q <+: path) (file : t.blocked q = true) :
    t.blocked path = true := by
  obtain ⟨p, before, here⟩ := blockedIff.mp file
  exact blockedIff.mpr ⟨p, before.trans above, here⟩

theorem isDirIff {t : FileTree α} {path : Path} : t.isDir path = true ↔ t path = some .dir := by
  unfold isDir
  split
  · next dir => exact ⟨fun _ => dir, fun _ => rfl⟩
  · next other => exact ⟨nofun, fun dir => absurd dir other⟩

theorem mkdirsKept {t : FileTree α} {path q : Path} (there : t q ≠ none) : t.mkdirs path q = t q :=
  if_neg fun missing => there missing.2.1

theorem mkdirsBlocked (t : FileTree α) (path q : Path) : (t.mkdirs path).blocked q = t.blocked q := by
  have same : (t.mkdirs path).isFile = t.isFile := by
    funext p
    unfold isFile mkdirs
    by_cases new : p <+: path ∧ t p = none ∧ t.blocked p = false
    · rw [if_pos new, new.2.1]
    · rw [if_neg new]
  rw [blocked, blocked, same]

theorem mkdirsEach (dirs : List Path) (t : FileTree α) (q : Path) : dirs.foldl mkdirs t q =
    if (∃ dir ∈ dirs, q <+: dir) ∧ t q = none ∧ t.blocked q = false then some .dir else t q := by
  induction dirs generalizing t with
  | nil => exact (if_neg fun made => nomatch made.1).symm
  | cons dir dirs ih =>
    rw [List.foldl_cons, ih, mkdirsBlocked]
    by_cases missing : t q = none ∧ t.blocked q = false
    · by_cases first : q <+: dir
      · have made : t.mkdirs dir q = some .dir := if_pos ⟨first, missing⟩
        rw [made, if_neg (fun later => nomatch later.2.1), if_pos ⟨⟨dir, List.mem_cons_self, first⟩, missing⟩]
      · have not_ : t.mkdirs dir q = t q := if_neg fun made => first made.1
        rw [not_]
        simp only [List.exists_mem_cons_iff, first, false_or]
    · have not_ : t.mkdirs dir q = t q := if_neg fun made => missing made.2
      rw [not_, if_neg fun made => missing made.2, if_neg fun made => missing made.2]

theorem mkdirsEachKept (dirs : List Path) {t : FileTree α} {q : Path} (there : t q ≠ none) :
    dirs.foldl mkdirs t q = t q := by
  rw [mkdirsEach, if_neg fun missing => there missing.2.1]

section WellFormed

variable {t : FileTree α} (wellFormed : t.WellFormed)
include wellFormed

theorem WellFormed.above {path q : Path} (below : path <+: q) (other : path ≠ q) (there : t q ≠ none) :
    t path = some .dir := by
  obtain ⟨rest, rfl⟩ := below
  induction rest using List.reverseRecOn with
  | nil => exact absurd (List.append_nil path).symm other
  | append_singleton rest name ih =>
    rw [← List.append_assoc] at there
    have parent := wellFormed _ _ there
    by_cases last : rest = []
    · rw [last, List.append_nil] at parent
      exact parent
    · refine ih (fun same => last ?_) (by rw [parent]; exact Option.some_ne_none _)
      exact List.append_right_eq_self.mp same.symm

theorem WellFormed.dirUnblocked {path : Path} (dir : t path = some .dir) : t.blocked path = false := by
  refine Bool.eq_false_iff.mpr fun file => ?_
  obtain ⟨q, above, here⟩ := blockedIff.mp file
  have same : t q = some .dir := by
    by_cases last : q = path
    · rw [last, dir]
    · exact wellFormed.above above last (by rw [dir]; exact Option.some_ne_none _)
  rw [isFile, same] at here
  cases here

theorem WellFormed.mkdirsDir {dirs : List Path} {dir : Path} (member : dir ∈ dirs) :
    (dirs.foldl mkdirs t).isDir dir = true ↔ t.blocked dir = false := by
  rw [isDirIff, mkdirsEach]
  constructor
  · intro made
    split at made
    · next missing => exact missing.2.2
    · exact wellFormed.dirUnblocked made
  · intro free
    split
    · rfl
    · next there =>
      cases node : t dir with
      | none => exact absurd ⟨⟨dir, member, List.prefix_refl dir⟩, node, free⟩ there
      | some node_ =>
        cases node_ with
        | dir => rfl
        | file content =>
          have file : t.blocked dir = true := blockedIff.mpr ⟨dir, List.prefix_refl dir, by rw [isFile, node]⟩
          rw [file] at free
          cases free

theorem WellFormed.nothingBelow {path q : Path} (none_ : t.isDir path = false) (below : path <+: q) (other : path ≠ q) :
    t q = none := by
  by_contra there
  have dir := isDirIff.mpr (wellFormed.above below other there)
  rw [none_] at dir
  cases dir

theorem WellFormed.blockedAt {path q : Path} (none_ : t.isDir path = false) (below : path <+: q) :
    t.blocked q = t.blocked path := by
  refine Bool.eq_iff_iff.mpr ⟨fun file => ?_, blockedBelow below⟩
  obtain ⟨p, above, here⟩ := blockedIff.mp file
  refine blockedIff.mpr ⟨p, ?_, here⟩
  cases List.prefix_or_prefix_of_prefix above below with
  | inl before => exact before
  | inr after =>
    by_cases same : path = p
    · rw [same]
    · rw [isFile, wellFormed.nothingBelow none_ after same] at here
      cases here

theorem WellFormed.removedUnblocked {path q : Path} (dir : t path = some .dir) (below : path <+: q) :
    (t.remove path).blocked q = false := by
  refine Bool.eq_false_iff.mpr fun file => ?_
  obtain ⟨p, above, here⟩ := blockedIff.mp file
  by_cases inside : path <+: p
  · rw [isFile, removeInside inside] at here
    cases here
  · have before : p <+: path := (List.prefix_or_prefix_of_prefix above below).resolve_right inside
    have other : p ≠ path := fun same => inside (same ▸ List.prefix_refl p)
    have parent : t p = some .dir := wellFormed.above before other (by rw [dir]; exact Option.some_ne_none _)
    rw [isFile, removeOutside inside, parent] at here
    cases here

theorem WellFormed.remove (path : Path) : (t.remove path).WellFormed := by
  intro q name there
  have outside : ¬ path <+: q ++ [name] := fun inside => there (removeInside inside)
  rw [removeOutside outside] at there
  rw [removeOutside fun inside => outside (inside.trans (List.prefix_append q [name]))]
  exact wellFormed q name there

end WellFormed

end FileTree
end Armor
