import Armor.Cross.TreeLayout

/-! The loops over the levels of a tree that the seed-tree and Merkle-tree code share,
with the 16-bit node indices of the source, and the visiting orders they amount to. -/
namespace Armor.Cross

def u16 (n : Nat) : Nat := n % 65536

def u32Sub (a b : Nat) : Nat := (a + (4294967296 - b)) % 4294967296

def parentIndex (i : Nat) : Nat := if i % 2 = 1 then (i - 1) / 2 else (i - 2) / 2

def siblingIndex (i : Nat) : Nat := if i % 2 = 1 then i + 1 else i - 1

def leftChildIndex (i : Nat) : Nat := 2 * i + 1

theorem u16Small {n : Nat} (small : n < 65536) : u16 n = n := Nat.mod_eq_of_lt small

theorem u32SubSmall {a b : Nat} (le : b ≤ a) (small : a < 4294967296) : u32Sub a b = a - b := by
  simp only [u32Sub]
  omega

variable {σ : Type _}

section Loops

variable (t : TreeTables)

def leafLoop (body : Nat → Nat → σ → σ) (s : σ) : σ :=
  (Loop.upTo t.subroots (fun i s => Loop.upTo (t.consLeaves i)
    (fun j s => (body (t.leavesStart i + j) s.2 s.1, s.2 + 1)) s) (s, 0)).1

/-- `for (level = LOG2(T); level > 0; level--)` from the first leaf of the last level, with
`start_node -= npl[level - 1]` at the end of each iteration. -/
def levelsDown (body : Nat → Nat → σ → σ) (s : σ) : σ :=
  (Loop.downFrom t.logT (fun l s => (u32Sub s.1 (t.npl l), body s.1 (l + 1) s.2)) (t.leavesStart 0, s)).2

/-- `for (level = 1; level <= LOG2(T); level++)` from node 1. -/
def levelsUp (body : Nat → Nat → σ → σ) (s : σ) : σ :=
  (Loop.upTo t.logT (fun l s => (s.1 + t.npl (l + 1), body s.1 (l + 1) s.2)) (1, s)).2

/-- `for (level = 0; level < LOG2(T); level++)` from the root. -/
def fathersUp (body : Nat → Nat → σ → σ) (s : σ) : σ :=
  (Loop.upTo t.logT (fun l s => (s.1 + t.npl l, body s.1 l s.2)) (0, s)).2

end Loops

namespace TreeLayout

variable (t : TreeLayout)

theorem nodeBelow {level i : Nat} (le : level ≤ t.logT) (width : i < t.npl level) :
    t.levelStart level + i < t.numNodes := by
  have := t.startBelow le
  omega

theorem u16Node {level i : Nat} (le : level ≤ t.logT) (width : i < t.npl level) :
    u16 (t.levelStart level + i) = t.levelStart level + i := by
  have := t.nodeBelow le width
  have := t.small
  exact u16Small (by omega)

theorem fatherIndex {level i : Nat} (below : level < t.logT) (width : i < t.npl (level + 1)) :
    u16 (parentIndex (t.levelStart (level + 1) + i) + t.off level / 2) =
      t.tree.parent (t.levelStart (level + 1) + i) := by
  have offset := t.offsetsMatch level below
  have inside := t.nodeBelow (show level + 1 ≤ t.logT by omega) width
  have := t.small
  have grow := t.startMono (show level ≤ level + 1 by omega)
  change _ = t.parent _
  rw [t.parentNode below width, parentIndex, u16]
  split <;> omega

theorem childIndex {level i : Nat} (below : level < t.logT) (isInner : i < t.expandable level) :
    u16 (leftChildIndex (t.levelStart level + i) - t.off level) =
      t.tree.left (t.levelStart level + i) := by
  have offset := t.offsetsMatch level below
  have next := t.nextLevel (by omega) isInner
  have inside := t.nodeBelow (show level + 1 ≤ t.logT by omega) (show 2 * i < t.npl (level + 1) by omega)
  have := t.small
  change _ = t.left _
  rw [t.leftNode (by omega) next.2.2, leftChildIndex, u16]
  omega

theorem siblingRight {level i : Nat} (below : level < t.logT) (even : i % 2 = 0) :
    siblingIndex (t.levelStart (level + 1) + i) = t.levelStart (level + 1) + i + 1 := by
  have := t.startOdd below
  rw [siblingIndex, if_pos (by omega)]

theorem nplEven {level : Nat} (below : level < t.logT) : t.npl (level + 1) % 2 = 0 := by
  have := t.widths level below
  omega

theorem leavesStartFirst : t.leavesStart 0 = t.levelStart t.logT := by
  have runs := t.runs
  have last := t.lastLevel
  rw [List.range_succ, List.reverse_append, List.reverse_singleton, List.singleton_append,
    List.filter_cons_of_pos (by simp; omega), List.map_cons, TreeTables.leafRuns] at runs
  cases starts : t.leavesStartIndices with
  | nil => simp [starts] at runs
  | cons a as =>
    cases cons : t.consecutiveLeaves with
    | nil => simp [cons] at runs
    | cons b bs =>
      rw [starts, cons, List.zip_cons_cons, List.cons.injEq, Prod.mk.injEq] at runs
      rw [TreeTables.leavesStart, starts, List.getD_cons_zero, runs.1.1]
      simp only [TreeTables.expandable, last.1]
      omega

theorem levelsDownRun (body : Nat → Nat → σ → σ) (s : σ) :
    levelsDown t.toTreeTables body s =
      Loop.downFrom t.logT (fun l s => body (t.levelStart (l + 1)) (l + 1) s) s := by
  have run : ∀ k ≤ t.logT, ∀ s, Loop.downFrom k
      (fun l s => (u32Sub s.1 (t.npl l), body s.1 (l + 1) s.2)) (t.levelStart k, s) =
      (0, Loop.downFrom k (fun l s => body (t.levelStart (l + 1)) (l + 1) s) s) := by
    intro k
    induction k with
    | zero => exact fun _ _ => rfl
    | succ k ih =>
      intro le s
      have bound := t.startBelow le
      have := t.small
      have step : t.levelStart (k + 1) = t.levelStart k + t.npl k := rfl
      rw [Loop.downFromSucc, Loop.downFromSucc, u32SubSmall (by omega) (by omega),
        show t.levelStart (k + 1) - t.npl k = t.levelStart k by omega, ih (by omega)]
  rw [levelsDown, t.leavesStartFirst, run _ (Nat.le_refl _)]

theorem levelsUpRun (body : Nat → Nat → σ → σ) (s : σ) :
    levelsUp t.toTreeTables body s =
      Loop.upTo t.logT (fun l s => body (t.levelStart (l + 1)) (l + 1) s) s := by
  have run : ∀ k, Loop.upTo k (fun l s => (s.1 + t.npl (l + 1), body s.1 (l + 1) s.2)) (1, s) =
      (t.levelStart (k + 1), Loop.upTo k (fun l s => body (t.levelStart (l + 1)) (l + 1) s) s) := by
    intro k
    induction k with
    | zero =>
      simp only [Loop.upToZero, TreeTables.levelStart, t.rootLevel]
    | succ k ih =>
      rw [Loop.upToSucc, Loop.upToSucc, ih]
      rfl
  rw [levelsUp, run]

theorem fathersUpRun (body : Nat → Nat → σ → σ) (s : σ) :
    fathersUp t.toTreeTables body s = Loop.upTo t.logT (fun l s => body (t.levelStart l) l s) s := by
  have run : ∀ k, Loop.upTo k (fun l s => (s.1 + t.npl l, body s.1 l s.2)) (0, s) =
      (t.levelStart k, Loop.upTo k (fun l s => body (t.levelStart l) l s) s) := by
    intro k
    induction k with
    | zero => rfl
    | succ k ih =>
      rw [Loop.upToSucc, Loop.upToSucc, ih]
      rfl
  rw [fathersUp, run]

theorem levelsUpInvariant {body : Nat → Nat → σ → σ} (inv : Nat → σ → Prop) {s : σ} (start : inv 1 s)
    (step : ∀ l < t.logT, ∀ s, inv (t.levelStart (l + 1)) s →
      inv (t.levelStart (l + 1) + t.npl (l + 1)) (body (t.levelStart (l + 1)) (l + 1) s)) :
    inv t.numNodes (levelsUp t.toTreeTables body s) := by
  rw [t.levelsUpRun, ← t.total]
  refine Loop.upToInvariant (fun l s => inv (t.levelStart (l + 1)) s) ?_ step
  simpa only [TreeTables.levelStart, t.rootLevel, Nat.zero_add] using start

section Keeps

variable {body : Nat → Nat → σ → σ} {inv : σ → Prop} (each : ∀ startNode level s, inv s → inv (body startNode level s))
include each

theorem levelsUpKeeps {s : σ} (start : inv s) : inv (levelsUp t.toTreeTables body s) := by
  rw [t.levelsUpRun]
  exact Loop.upToInvariant (fun _ s => inv s) start fun _ _ s here => each _ _ s here

theorem fathersUpKeeps {s : σ} (start : inv s) : inv (fathersUp t.toTreeTables body s) := by
  rw [t.fathersUpRun]
  exact Loop.upToInvariant (fun _ s => inv s) start fun _ _ s here => each _ _ s here

theorem levelsDownKeeps {s : σ} (start : inv s) : inv (levelsDown t.toTreeTables body s) := by
  rw [t.levelsDownRun]
  exact Loop.downFromInvariant (fun _ s => inv s) start fun _ _ s here => each _ _ s here

end Keeps

theorem startHalf {level : Nat} (le : level ≤ t.logT) :
    t.levelStart (level + 1) / 2 = t.levelStart level / 2 + t.npl level / 2 := by
  cases level with
  | zero => simp [TreeTables.levelStart, t.rootLevel]
  | succ level =>
    have odd := t.startOdd (show level < t.logT by omega)
    have even := t.nplEven (show level < t.logT by omega)
    have step : t.levelStart (level + 1 + 1) = t.levelStart (level + 1) + t.npl (level + 1) := rfl
    omega

theorem downPairs (visit : Nat → σ → σ) {body : Nat → Nat → σ → σ}
    (same : ∀ l < t.logT, ∀ s, body (t.levelStart (l + 1)) (l + 1) s =
      Loop.downFrom (t.npl (l + 1) / 2) (fun j => visit (t.levelStart (l + 1) + 2 * j)) s) (s : σ) :
    levelsDown t.toTreeTables body s = Loop.downFrom (t.numNodes / 2) (fun j => visit (2 * j + 1)) s := by
  have run : ∀ k ≤ t.logT, ∀ s, Loop.downFrom k (fun l s => body (t.levelStart (l + 1)) (l + 1) s) s =
      Loop.downFrom (t.levelStart (k + 1) / 2) (fun j => visit (2 * j + 1)) s := by
    intro k
    induction k with
    | zero =>
      intro le s
      rw [t.startHalf le]
      simp [TreeTables.levelStart, t.rootLevel]
    | succ k ih =>
      intro le s
      have odd := t.startOdd (show k < t.logT by omega)
      rw [Loop.downFromSucc, ih (by omega), same k (by omega), t.startHalf le, Loop.downFromAdd]
      congr 1
      exact Loop.downFromCongr (fun j _ s => by congr 1; omega) s
  rw [t.levelsDownRun, run _ (Nat.le_refl _), t.total]

theorem downPairsMap {τ : Type _} (visit : Nat → σ → σ) (encode : σ → τ) {body : Nat → Nat → τ → τ}
    (same : ∀ l < t.logT, ∀ s, body (t.levelStart (l + 1)) (l + 1) (encode s) =
      encode (Loop.downFrom (t.npl (l + 1) / 2) (fun j => visit (t.levelStart (l + 1) + 2 * j)) s)) (s : σ) :
    levelsDown t.toTreeTables body (encode s) =
      encode (Loop.downFrom (t.numNodes / 2) (fun j => visit (2 * j + 1)) s) := by
  have plain : levelsDown t.toTreeTables (fun start level s =>
      Loop.downFrom (t.npl level / 2) (fun j => visit (start + 2 * j)) s) s = _ :=
    t.downPairs visit (fun _ _ _ => rfl) s
  rw [levelsDownRun] at plain
  rw [levelsDownRun, ← plain]
  exact Loop.downFromMap encode same s

theorem upNodes (visit : Nat → σ → σ) {body : Nat → Nat → σ → σ}
    (same : ∀ l < t.logT, ∀ s, body (t.levelStart (l + 1)) (l + 1) s =
      Loop.upTo (t.npl (l + 1)) (fun i => visit (t.levelStart (l + 1) + i)) s) (s : σ) :
    levelsUp t.toTreeTables body s = Loop.upTo (t.numNodes - 1) (fun i => visit (i + 1)) s := by
  have run : ∀ k ≤ t.logT, Loop.upTo k (fun l s => body (t.levelStart (l + 1)) (l + 1) s) s =
      Loop.upTo (t.levelStart (k + 1) - 1) (fun i => visit (i + 1)) s := by
    intro k
    induction k with
    | zero =>
      intro _
      simp [TreeTables.levelStart, t.rootLevel]
    | succ k ih =>
      intro le
      have step : t.levelStart (k + 1 + 1) = t.levelStart (k + 1) + t.npl (k + 1) := rfl
      have odd := t.startOdd (show k < t.logT by omega)
      rw [Loop.upToSucc, ih (by omega), same k (by omega), step,
        show t.levelStart (k + 1) + t.npl (k + 1) - 1 = t.levelStart (k + 1) - 1 + t.npl (k + 1) by omega,
        Loop.upToAdd]
      exact Loop.upToCongr (fun i _ s => by congr 1; omega) _
  rw [t.levelsUpRun, run _ (Nat.le_refl _), t.total]

theorem upFathers (visit : Nat → σ → σ) {body : Nat → Nat → σ → σ}
    (same : ∀ l < t.logT, ∀ s, body (t.levelStart l) l s =
      Loop.upTo (t.expandable l) (fun i => visit (t.levelStart l + i)) s)
    (idle : ∀ n s, t.tree.inner n = false → visit n s = s) (s : σ) :
    fathersUp t.toTreeTables body s = Loop.upTo t.numNodes visit s := by
  have leaves : ∀ l ≤ t.logT, ∀ s, Loop.upTo (t.npl l) (fun i => visit (t.levelStart l + i)) s =
      Loop.upTo (t.expandable l) (fun i => visit (t.levelStart l + i)) s := by
    intro l le s
    have split : t.npl l = t.expandable l + (t.npl l - t.expandable l) := by
      simp only [TreeTables.expandable]; omega
    rw [split, Loop.upToAdd]
    refine Loop.upToInvariant (fun _ u => u = _) rfl fun i below u same => ?_
    rw [← same]
    apply idle
    change t.inner _ = false
    rw [t.innerNode le (by omega)]
    simp
  have run : ∀ k ≤ t.logT, Loop.upTo k (fun l s => body (t.levelStart l) l s) s =
      Loop.upTo (t.levelStart k) visit s := by
    intro k
    induction k with
    | zero => exact fun _ => rfl
    | succ k ih =>
      intro le
      have step : t.levelStart (k + 1) = t.levelStart k + t.npl k := rfl
      rw [Loop.upToSucc, ih (by omega), same k (by omega), step, Loop.upToAdd, leaves k (by omega)]
  have last : t.numNodes = t.levelStart t.logT + t.npl t.logT := t.total.symm
  have none : t.expandable t.logT = 0 := by simp only [TreeTables.expandable, t.lastLevel.1]; omega
  rw [t.fathersUpRun, run _ (Nat.le_refl _), last, Loop.upToAdd, leaves _ (Nat.le_refl _), none,
    Loop.upToZero]

theorem leafRun (body : Nat → Nat → σ → σ) (start n c : Nat) (s : σ) :
    Loop.upTo n (fun j (s : σ × Nat) => (body (start + j) s.2 s.1, s.2 + 1)) (s, c) =
      ((((List.range n).map (start + ·)).zipIdx c).foldl (fun s x => body x.1 x.2 s) s, c + n) := by
  induction n with
  | zero => rfl
  | succ n ih =>
    rw [Loop.upToSucc, ih, List.range_succ, List.map_append, List.zipIdx_append, List.foldl_append]
    simp only [List.map_cons, List.map_nil, List.zipIdx_singleton, List.foldl_cons, List.foldl_nil,
      List.length_map, List.length_range, Nat.add_comm c n]
    congr 1
    omega

theorem leafLoopRun (body : Nat → Nat → σ → σ) (s : σ) :
    leafLoop t.toTreeTables body s = t.leafNodes.zipIdx.foldl (fun s x => body x.1 x.2 s) s := by
  have start : ∀ i, t.leavesStart i = (t.leafRuns.getD i (0, 0)).1 := fun i => by
    simp only [TreeTables.leavesStart, TreeTables.leafRuns, List.getD_eq_getElem?_getD, List.zip,
      List.getElem?_zipWith]
    have := t.sameLength
    by_cases inside : i < t.leavesStartIndices.length
    · rw [List.getElem?_eq_getElem inside, List.getElem?_eq_getElem (by omega)]
      rfl
    · rw [List.getElem?_eq_none (by omega)]
      rfl
  have count : ∀ i, t.consLeaves i = (t.leafRuns.getD i (0, 0)).2 := fun i => by
    simp only [TreeTables.consLeaves, TreeTables.leafRuns, List.getD_eq_getElem?_getD, List.zip,
      List.getElem?_zipWith]
    have := t.sameLength
    by_cases inside : i < t.leavesStartIndices.length
    · rw [List.getElem?_eq_getElem inside, List.getElem?_eq_getElem (by omega)]
      rfl
    · rw [List.getElem?_eq_none (l := t.consecutiveLeaves) (by omega),
        List.getElem?_eq_none (l := t.leavesStartIndices) (by omega)]
      rfl
  have total : t.subroots = t.leafRuns.length := by
    simp [TreeTables.subroots, TreeTables.leafRuns, t.sameLength]
  have folded : ∀ (runs : List (Nat × Nat)) (c : Nat) (s : σ),
      (runs.foldl (fun s run => Loop.upTo run.2
        (fun j (s : σ × Nat) => (body (run.1 + j) s.2 s.1, s.2 + 1)) s) (s, c)).1 =
      ((runs.flatMap fun run => (List.range run.2).map (run.1 + ·)).zipIdx c).foldl
        (fun s x => body x.1 x.2 s) s := by
    intro runs
    induction runs with
    | nil => exact fun _ _ => rfl
    | cons run runs ih =>
      intro c s
      rw [List.foldl_cons, leafRun, ih, List.flatMap_cons, List.zipIdx_append, List.foldl_append,
        List.length_map, List.length_range]
  simp only [leafLoop, start, count, total]
  rw [Loop.upToList t.leafRuns (0, 0) (fun run (s : σ × Nat) => Loop.upTo run.2
    (fun j s => (body (run.1 + j) s.2 s.1, s.2 + 1)) s), folded]
  rfl

def leafNode (cnt : Nat) : Nat := t.leafNodes.getD cnt 0

theorem leafNodeAt {cnt : Nat} (inside : cnt < t.leafNodes.length) : t.leafNode cnt = t.leafNodes[cnt] := by
  simp [leafNode, inside]

theorem leafNodeInside {cnt : Nat} (inside : cnt < t.leaves) :
    t.leafNode cnt < t.numNodes ∧ t.tree.inner (t.leafNode cnt) = false := by
  have bound : cnt < t.leafNodes.length := by rwa [t.leafNodesLength]
  have member := (t.memLeafNodes).mp (List.getElem_mem bound)
  rw [t.leafNodeAt bound]
  exact member

theorem leafNodeInjective {a b : Nat} (ha : a < t.leaves) (hb : b < t.leaves)
    (same : t.leafNode a = t.leafNode b) : a = b := by
  have ha' : a < t.leafNodes.length := by rwa [t.leafNodesLength]
  have hb' : b < t.leafNodes.length := by rwa [t.leafNodesLength]
  rw [t.leafNodeAt ha', t.leafNodeAt hb'] at same
  exact (t.leafNodesNodup.getElem_inj_iff).mp same

theorem leafNodeSurjective {n : Nat} (inside : n < t.numNodes) (leaf : t.tree.inner n = false) :
    ∃ cnt < t.leaves, t.leafNode cnt = n := by
  obtain ⟨cnt, bound, same⟩ := List.mem_iff_getElem.mp ((t.memLeafNodes).mpr ⟨inside, leaf⟩)
  exact ⟨cnt, by rwa [t.leafNodesLength] at bound, by rw [t.leafNodeAt bound, same]⟩

theorem leafLoopRounds (body : Nat → Nat → σ → σ) (s : σ) :
    leafLoop t.toTreeTables body s = Loop.upTo t.leaves (fun cnt => body (t.leafNode cnt) cnt) s := by
  have general : ∀ (l : List Nat) (c : Nat) (s : σ),
      (l.zipIdx c).foldl (fun s x => body x.1 x.2 s) s =
        Loop.upTo l.length (fun i => body (l.getD i 0) (c + i)) s := by
    intro l
    induction l with
    | nil => exact fun _ _ => rfl
    | cons a l ih =>
      intro c s
      rw [List.zipIdx_cons, List.foldl_cons, ih, List.length_cons, Loop.upToFirst]
      exact Loop.upToCongr (fun i _ s => by
        rw [List.getD_cons_succ, Nat.add_assoc, Nat.add_comm 1 i]) _
  rw [t.leafLoopRun, general, t.leafNodesLength]
  exact Loop.upToCongr (fun i _ s => by rw [Nat.zero_add]; rfl) _

theorem leafLoopScatter {α : Type _} (value : Nat → α → α) (f : Nat → α) :
    let g := leafLoop t.toTreeTables (fun node cnt f => Function.update f node (value cnt (f node))) f
    (∀ cnt < t.leaves, g (t.leafNode cnt) = value cnt (f (t.leafNode cnt))) ∧
    ∀ n, (n < t.numNodes → t.tree.inner n = true) → g n = f n := by
  have run : ∀ k ≤ t.leaves, (∀ cnt < k, Loop.upTo k (fun cnt f =>
      Function.update f (t.leafNode cnt) (value cnt (f (t.leafNode cnt)))) f (t.leafNode cnt) =
        value cnt (f (t.leafNode cnt))) ∧
      ∀ n, (∀ cnt < k, n ≠ t.leafNode cnt) → Loop.upTo k (fun cnt f =>
        Function.update f (t.leafNode cnt) (value cnt (f (t.leafNode cnt)))) f n = f n := by
    intro k
    induction k with
    | zero => exact fun _ => ⟨fun _ h => by omega, fun _ _ => rfl⟩
    | succ k ih =>
      intro le
      obtain ⟨written, kept⟩ := ih (by omega)
      rw [Loop.upToSucc]
      refine ⟨fun cnt below => ?_, fun n other => ?_⟩
      · by_cases here : cnt = k
        · subst here
          rw [Function.update_self, kept]
          intro c less same
          have := t.leafNodeInjective (by omega) (by omega) same
          omega
        · have differ : t.leafNode cnt ≠ t.leafNode k := fun same =>
            here (t.leafNodeInjective (by omega) (by omega) same)
          rw [Function.update_of_ne differ, written cnt (by omega)]
      · rw [Function.update_of_ne (other k (by omega)), kept n fun c less => other c (by omega)]
  obtain ⟨written, kept⟩ := run t.leaves (Nat.le_refl _)
  simp only [t.leafLoopRounds]
  refine ⟨written, fun n isInner => kept n fun cnt below same => ?_⟩
  have leaf := t.leafNodeInside below
  rw [← same] at leaf
  rw [isInner leaf.1] at leaf
  exact absurd leaf.2 (by simp)

theorem leafLoopGather {α : Type _} (value : Nat → α) (out : Nat → α) (cnt : Nat) :
    leafLoop t.toTreeTables (fun node cnt out => Function.update out cnt (value node)) out cnt =
      if cnt < t.leaves then value (t.leafNode cnt) else out cnt := by
  have run : ∀ k, Loop.upTo k (fun cnt out => Function.update out cnt (value (t.leafNode cnt))) out cnt =
      if cnt < k then value (t.leafNode cnt) else out cnt := by
    intro k
    induction k with
    | zero => rfl
    | succ k ih =>
      rw [Loop.upToSucc]
      by_cases here : cnt = k
      · subst here
        rw [Function.update_self, if_pos (by omega)]
      · rw [Function.update_of_ne here, ih]
        congr 1
        rw [eq_iff_iff]
        omega
  rw [t.leafLoopRounds, run]

end TreeLayout
end Armor.Cross
