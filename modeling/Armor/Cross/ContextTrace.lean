import Armor.Cross.Merkle
import Armor.Lib.Contexts

/-! The incremental SHAKE contexts that `CROSS_sign` and `CROSS_verify` initialise and release, in
the portable and the SVE2 version. Of the data only the challenge decides which contexts are used.
A two-lane state is a plain buffer and not among them. -/
namespace Armor.Cross.ContextTrace
open Contexts (Trace Balanced Above Closes)

def csprngInitialize (csprngState : Nat) (s : Trace) : Trace := s.init csprngState
def csprngRelease (csprngState : Nat) (s : Trace) : Trace := s.release csprngState

def csprngInitializePar (parLevel states : Nat) (s : Trace) : Trace :=
  if parLevel = 1 then csprngInitialize states s else s

def hash (s : Trace) : Trace :=
  s.declare fun csprngState s => csprngRelease csprngState (csprngInitialize csprngState s)

def hashPar (parLevel : Nat) (s : Trace) : Trace := s.declare fun states s => csprngInitializePar parLevel states s

def expandDigestToFixedWeight (s : Trace) : Trace :=
  s.declare fun csprngState s => csprngRelease csprngState (csprngInitialize csprngState s)

def expandPk (s : Trace) : Trace :=
  s.declare fun csprngStateMat s => csprngRelease csprngStateMat (csprngInitialize csprngStateMat s)

def expandSk (s : Trace) : Trace :=
  s.declare fun csprngState s => s.declare fun csprngStateEBar s =>
    let s := csprngRelease csprngState (csprngInitialize csprngState s)
    let s := expandPk s
    csprngRelease csprngStateEBar (csprngInitialize csprngStateEBar s)

variable (p : Parameters)

def Portable.genSeedTree (s : Trace) : Trace :=
  let t := p.layout.toTreeTables
  s.declare fun treeCsprngState s =>
    fathersUp t (fun _ level s => Loop.upTo (t.npl level - t.lpl level)
      (fun _ s => csprngRelease treeCsprngState (csprngInitialize treeCsprngState s)) s) s

def Sve2.genSeedTree (s : Trace) : Trace :=
  let t := p.layout.toTreeTables
  fathersUp t (fun _ level s => Loop.paired (t.npl level - t.lpl level)
    (fun _ s => s.declare fun states s => csprngInitializePar 2 states s)
    (fun _ s => s.declare fun treeCsprngState s =>
      csprngRelease treeCsprngState (csprngInitialize treeCsprngState s)) s) s

def Portable.rebuildTree (indicesToPublish : Mem) (s : Trace) : Trace :=
  let t := p.layout.toTreeTables
  let flags := SeedTree.Portable.computeSeedsToPublish t (fun _ => SeedTree.notToPublish) indicesToPublish
  s.declare fun treeCsprngState s =>
    levelsUp t (fun startNode level s => Loop.upTo (t.npl level) (fun nodeInLevel s =>
      let currentNode := u16 (startNode + nodeInLevel)
      if flags currentNode = SeedTree.toPublish ∧ nodeInLevel < t.npl level - t.lpl level then
        csprngRelease treeCsprngState (csprngInitialize treeCsprngState s)
      else s) s) s

def expandPublished (flags : Mem) (level node nodeInLevel : Nat) (s : Trace) : Trace :=
  let t := p.layout.toTreeTables
  if flags node = SeedTree.toPublish ∧ nodeInLevel < t.npl level - t.lpl level then
    s.declare fun state s => csprngRelease state (csprngInitialize state s)
  else s

def Sve2.rebuildTree (indicesToPublish : Mem) (s : Trace) : Trace :=
  let t := p.layout.toTreeTables
  let flags := SeedTree.Sve2.computeSeedsToPublish t (fun _ => SeedTree.notToPublish) indicesToPublish
  levelsUp t (fun startNode level s =>
    let expandLimit := t.npl level - t.lpl level
    Loop.paired (t.npl level) (fun nodeInLevel s =>
      let curr1 := u16 (startNode + nodeInLevel)
      let curr2 := u16 (startNode + nodeInLevel + 1)
      if (flags curr1 = SeedTree.toPublish ∧ nodeInLevel < expandLimit) ∧
          (flags curr2 = SeedTree.toPublish ∧ nodeInLevel + 1 < expandLimit) then
        s.declare fun states s => csprngInitializePar 2 states s
      else expandPublished p flags level curr2 (nodeInLevel + 1) (expandPublished p flags level curr1 nodeInLevel s))
      (fun nodeInLevel s => expandPublished p flags level (u16 (startNode + nodeInLevel)) nodeInLevel s) s) s

def Portable.treeRoot (s : Trace) : Trace :=
  let t := p.layout.toTreeTables
  levelsDown t (fun _ level s => Loop.downByTwo (t.npl level) (fun _ s => hash s) s) s

def Sve2.treeRoot (s : Trace) : Trace :=
  let t := p.layout.toTreeTables
  levelsDown t (fun _ level s => Loop.pairedDown (fun _ s => hashPar 2 s) (fun _ s => hash s) (t.npl level) s) s

def hashPairInto (currentNode parentNode : Nat) (s : Mem × Trace) : Mem × Trace :=
  if s.1 currentNode = Merkle.computed ∨ s.1 (siblingIndex currentNode) = Merkle.computed then
    (Function.update s.1 parentNode Merkle.computed, hash s.2)
  else s

def Portable.recomputeRoot (leavesToReveal : Mem) (s : Trace) : Trace :=
  let t := p.layout.toTreeTables
  (levelsDown t (fun startNode level s => Loop.downByTwo (t.npl level) (fun i s =>
    let currentNode := u16 (startNode + i)
    let parentNode := u16 (parentIndex currentNode + t.off (level - 1) / 2)
    if s.1 currentNode = Merkle.notComputed ∧ s.1 (siblingIndex currentNode) = Merkle.notComputed then s
    else (Function.update s.1 parentNode Merkle.computed, hash s.2)) s)
    (Merkle.labelLeaves t (fun _ => Merkle.notComputed) leavesToReveal, s)).2

def Sve2.recomputeRoot (leavesToReveal : Mem) (s : Trace) : Trace :=
  let t := p.layout.toTreeTables
  let needed := fun (node : Nat) (s : Mem × Trace) =>
    decide (s.1 node = Merkle.computed ∨ s.1 (siblingIndex node) = Merkle.computed)
  (levelsDown t (fun startNode level s => Loop.attemptDown
    (fun i s => needed (u16 (startNode + i)) s && needed (u16 (startNode + (i - 2))) s)
    (fun i s =>
      let parent1 := u16 (parentIndex (u16 (startNode + i)) + t.off (level - 1) / 2)
      let parent2 := u16 (parentIndex (u16 (startNode + (i - 2))) + t.off (level - 1) / 2)
      (Function.update (Function.update s.1 parent1 Merkle.computed) parent2 Merkle.computed, hashPar 2 s.2))
    (fun i s =>
      let currentNode := u16 (startNode + i)
      hashPairInto currentNode (u16 (parentIndex currentNode + t.off (level - 1) / 2)) s)
    (t.npl level) s)
    (Merkle.labelLeaves t (fun _ => Merkle.notComputed) leavesToReveal, s)).2

def hashCommitments (s : Trace) : Trace := hash (hash (hash (hash s)))

def Portable.sign : Trace :=
  Trace.empty.declare fun csprngState s =>
    let s := Portable.genSeedTree p (expandSk s)
    let s := Loop.upTo p.t (fun _ s => hash (hash (csprngRelease csprngState (csprngInitialize csprngState s)))) s
    let s := hashCommitments (Portable.treeRoot p s)
    let s := csprngRelease csprngState (csprngInitialize csprngState s)
    expandDigestToFixedWeight (hash s)

def Sve2.signRound (csprngState i : Nat) (s : Nat × Trace) : Nat × Trace :=
  let trace := csprngInitialize csprngState s.2
  let toHash := s.1 + 1
  if toHash = 2 ∨ i = p.t - 1 then (0, hashPar toHash (hashPar toHash trace)) else (toHash, trace)

def Sve2.sign : Trace :=
  Trace.empty.declare fun csprngState s =>
    let s := Sve2.genSeedTree p (expandSk s)
    let s := (Loop.upTo p.t (Sve2.signRound p csprngState) (0, s)).2
    let s := hashCommitments (Sve2.treeRoot p s)
    let s := csprngInitialize csprngState s
    expandDigestToFixedWeight (hash s)

def Portable.verifyRound (challenge : Mem) (csprngState i : Nat) (s : Trace) : Trace :=
  if challenge i = 1 then csprngRelease csprngState (csprngInitialize csprngState (hash s)) else hash s

def Portable.verify (challenge : Mem) : Trace :=
  Trace.empty.declare fun csprngState s =>
    let s := hash (hash (expandPk s))
    let s := csprngRelease csprngState (csprngInitialize csprngState s)
    let s := Portable.rebuildTree p challenge (expandDigestToFixedWeight s)
    let s := Loop.upTo p.t (Portable.verifyRound challenge csprngState) s
    let s := Portable.recomputeRoot p challenge s
    hash (hash (hash s))

structure VerifyQueues where
  toHashCmt1 : Nat
  toHashCmt0 : Nat
  trace : Trace

def Sve2.verifyRound (challenge : Mem) (csprngState i : Nat) (s : VerifyQueues) : VerifyQueues :=
  let s := if challenge i = 1 then
      { s with toHashCmt1 := s.toHashCmt1 + 1, trace := csprngInitialize csprngState s.trace }
    else { s with toHashCmt0 := s.toHashCmt0 + 1 }
  let s := if s.toHashCmt1 = 2 ∨ i = p.t - 1 then { s with toHashCmt1 := 0, trace := hashPar s.toHashCmt1 s.trace } else s
  if s.toHashCmt0 = 2 ∨ i = p.t - 1 then { s with toHashCmt0 := 0, trace := hashPar s.toHashCmt0 s.trace } else s

def Sve2.verify (challenge : Mem) : Trace :=
  Trace.empty.declare fun csprngState s =>
    let s := csprngInitialize csprngState (hash (hash (expandPk s)))
    let s := Sve2.rebuildTree p challenge (expandDigestToFixedWeight s)
    let s := (Loop.upTo p.t (Sve2.verifyRound p challenge csprngState) ⟨0, 0, s⟩).trace
    let s := Sve2.recomputeRoot p challenge s
    hash (hash (hash s))

def Clean (prog : Trace → Trace) : Prop := ∀ base s, base ≤ s.next → Closes base s (prog s)

theorem Clean.then {first second : Trace → Trace} (one : Clean first) (two : Clean second) :
    Clean fun s => second (first s) := by
  intro base s low
  have before := one base s low
  exact before.trans (two base _ (Nat.le_trans low before.declared))

theorem contextClean {context base : Nat} (s : Trace) (low : base ≤ context) :
    Closes base s (csprngRelease context (csprngInitialize context s)) :=
  (Contexts.closesAround Closes.refl).lower low

theorem localClean : Clean fun s => s.declare fun c s => csprngRelease c (csprngInitialize c s) :=
  fun _ _ low => Contexts.declareCloses fun s' _ => contextClean s' low

theorem hashClean : Clean hash := localClean

theorem expandDigestClean : Clean expandDigestToFixedWeight := localClean

theorem expandPkClean : Clean expandPk := localClean

theorem expandSkClean : Clean expandSk := by
  intro base s low
  refine Contexts.declareCloses fun s' next => Contexts.declareCloses fun s'' next' => ?_
  have first := contextClean s'' low
  have middle := expandPkClean base _ (show base ≤ (csprngRelease s.next (csprngInitialize s.next s'')).next by
    change base ≤ s''.next
    omega)
  exact (first.trans middle).trans (contextClean _ (by omega))

theorem twoLanesClean : Clean fun s => s.declare fun states s => csprngInitializePar 2 states s :=
  fun _ _ _ => Contexts.declareCloses fun _ _ => Closes.refl

theorem hashParTwoClean : Clean (hashPar 2) := twoLanesClean

theorem hashParAbove (parLevel : Nat) {base : Nat} {s : Trace} (low : base ≤ s.next) :
    Above base s (hashPar parLevel s) := by
  refine Contexts.declareAbove fun s' _ => ?_
  unfold csprngInitializePar
  split
  · exact (Contexts.initAbove _ _).lower low
  · exact Above.refl

section Trees

variable {base : Nat} {start : Trace}

theorem Clean.step {prog : Trace → Trace} (clean : Clean prog) {s : Trace} (low : base ≤ start.next)
    (here : Closes base start s) : Closes base start (prog s) :=
  here.trans (clean base s (Nat.le_trans low here.declared))

theorem portableGenSeedTreeClean : Clean (Portable.genSeedTree p) := by
  intro base s low
  unfold Portable.genSeedTree
  refine Contexts.declareCloses fun s' _ => @TreeLayout.fathersUpKeeps _ p.layout _ (fun t => Closes base s' t)
    (fun _ _ t here => ?_) s' Closes.refl
  exact Loop.upToInvariant (fun _ t => Closes base s' t) here fun _ _ t here => here.trans (contextClean t low)

theorem sve2GenSeedTreeClean : Clean (Sve2.genSeedTree p) := by
  intro base s low
  unfold Sve2.genSeedTree
  refine @TreeLayout.fathersUpKeeps _ p.layout _ (fun t => Closes base s t) (fun _ _ t here => ?_) s Closes.refl
  exact Loop.pairedKeeps (fun _ t here => twoLanesClean.step low here) (fun _ t here => localClean.step low here) here

theorem portableRebuildTreeClean (indicesToPublish : Mem) : Clean (Portable.rebuildTree p indicesToPublish) := by
  intro base s low
  unfold Portable.rebuildTree
  refine Contexts.declareCloses fun s' _ => @TreeLayout.levelsUpKeeps _ p.layout _ (fun t => Closes base s' t)
    (fun _ _ t here => ?_) s' Closes.refl
  refine Loop.upToInvariant (fun _ t => Closes base s' t) here fun _ _ t here => ?_
  dsimp only
  split
  · exact here.trans (contextClean t low)
  · exact here

theorem expandPublishedClean (flags : Mem) (level node nodeInLevel : Nat) :
    Clean (expandPublished p flags level node nodeInLevel) := by
  intro base s low
  unfold expandPublished
  dsimp only
  split
  · exact localClean base s low
  · exact Closes.refl

theorem sve2RebuildTreeClean (indicesToPublish : Mem) : Clean (Sve2.rebuildTree p indicesToPublish) := by
  intro base s low
  unfold Sve2.rebuildTree
  refine @TreeLayout.levelsUpKeeps _ p.layout _ (fun t => Closes base s t) (fun _ level t here => ?_) s Closes.refl
  refine Loop.pairedKeeps (fun _ t here => ?_) (fun _ t here => (expandPublishedClean p _ _ _ _).step low here) here
  dsimp only
  split
  · exact twoLanesClean.step low here
  · exact ((expandPublishedClean p _ level _ _).then (expandPublishedClean p _ level _ _)).step low here

theorem portableTreeRootClean : Clean (Portable.treeRoot p) := by
  intro base s low
  unfold Portable.treeRoot
  refine @TreeLayout.levelsDownKeeps _ p.layout _ (fun t => Closes base s t) (fun _ _ t here => ?_) s Closes.refl
  exact Loop.downByTwoKeeps (fun _ t here => hashClean.step low here) here

theorem sve2TreeRootClean : Clean (Sve2.treeRoot p) := by
  intro base s low
  unfold Sve2.treeRoot
  refine @TreeLayout.levelsDownKeeps _ p.layout _ (fun t => Closes base s t) (fun _ _ t here => ?_) s Closes.refl
  exact Loop.pairedDownKeeps (fun _ t here => hashParTwoClean.step low here) (fun _ t here => hashClean.step low here) _ here

theorem portableRecomputeRootClean (leavesToReveal : Mem) : Clean (Portable.recomputeRoot p leavesToReveal) := by
  intro base s low
  unfold Portable.recomputeRoot
  refine @TreeLayout.levelsDownKeeps (Mem × Trace) p.layout _ (fun t => Closes base s t.2)
    (fun _ _ t here => ?_) _ Closes.refl
  refine @Loop.downByTwoKeeps (Mem × Trace) _ _ (fun t => Closes base s t.2) (fun _ t here => ?_) _ here
  dsimp only
  split
  · exact here
  · exact hashClean.step low here

theorem sve2RecomputeRootClean (leavesToReveal : Mem) : Clean (Sve2.recomputeRoot p leavesToReveal) := by
  intro base s low
  unfold Sve2.recomputeRoot
  refine @TreeLayout.levelsDownKeeps (Mem × Trace) p.layout _ (fun t => Closes base s t.2)
    (fun _ _ t here => ?_) _ Closes.refl
  refine @Loop.attemptDownKeeps (Mem × Trace) _ _ _ (fun t => Closes base s t.2)
    (fun _ t here => hashParTwoClean.step low here) (fun _ t here => ?_) _ _ here
  unfold hashPairInto
  dsimp only
  split
  · exact hashClean.step low here
  · exact here

end Trees

theorem hashCommitmentsClean : Clean hashCommitments := ((hashClean.then hashClean).then hashClean).then hashClean

theorem portableSignBalanced : Balanced (Portable.sign p).ops := by
  refine Contexts.closesBalanced (Contexts.declareCloses fun s' _ => ?_)
  have low : 0 ≤ s'.next := Nat.zero_le _
  have expanded := (portableGenSeedTreeClean p).step low (expandSkClean.step low Closes.refl)
  have rounds : Closes 0 s' (Loop.upTo p.t (fun _ s => hash (hash (csprngRelease Trace.empty.next
      (csprngInitialize Trace.empty.next s)))) (Portable.genSeedTree p (expandSk s'))) := by
    refine Loop.upToInvariant (fun _ s => Closes 0 s' s) expanded fun _ _ s here => ?_
    exact hashClean.step low (hashClean.step low (here.trans (contextClean s (Nat.zero_le _))))
  have committed := hashCommitmentsClean.step low ((portableTreeRootClean p).step low rounds)
  have challenged := committed.trans (@contextClean Trace.empty.next 0 _ (Nat.zero_le _))
  exact expandDigestClean.step low (hashClean.step low challenged)

theorem portableVerifyRoundClean (challenge : Mem) (csprngState i : Nat) {s s' : Trace} (here : Closes 0 s' s) :
    Closes 0 s' (Portable.verifyRound challenge csprngState i s) := by
  have low : 0 ≤ s'.next := Nat.zero_le _
  unfold Portable.verifyRound
  split
  · exact (hashClean.step low here).trans (contextClean _ (Nat.zero_le _))
  · exact hashClean.step low here

theorem portableVerifyBalanced (challenge : Mem) : Balanced (Portable.verify p challenge).ops := by
  refine Contexts.closesBalanced (Contexts.declareCloses fun s' _ => ?_)
  have low : 0 ≤ s'.next := Nat.zero_le _
  have begun := hashClean.step low (hashClean.step low (expandPkClean.step low Closes.refl))
  have drawn := begun.trans (@contextClean Trace.empty.next 0 _ (Nat.zero_le _))
  have rebuilt := (portableRebuildTreeClean p challenge).step low (expandDigestClean.step low drawn)
  have rounds : ∀ s, Closes 0 s' s →
      Closes 0 s' (Loop.upTo p.t (Portable.verifyRound challenge Trace.empty.next) s) := fun s here =>
    Loop.upToInvariant (fun _ s => Closes 0 s' s) here fun i _ _ here => portableVerifyRoundClean challenge _ i here
  have recomputed := (portableRecomputeRootClean p challenge).step low (rounds _ rebuilt)
  exact hashClean.step low (hashClean.step low (hashClean.step low recomputed))

structure Held (context : Nat) (s : Trace) : Prop where
  held : .release context ∉ s.ops
  declared : context < s.next

structure Leaked (context : Nat) (s : Trace) : Prop extends Held context s where
  initialised : .init context ∈ s.ops

section Leaks

variable {context : Nat} {s s' : Trace}

theorem Held.above (held : Held context s) (above : Above (context + 1) s s') : Held context s' :=
  ⟨Contexts.aboveHolds held.held above, Nat.lt_of_lt_of_le held.declared above.declared⟩

theorem Held.init (held : Held context s) : Leaked context (csprngInitialize context s) where
  held := by
    intro released
    cases List.mem_append.mp released with
    | inl released => exact held.held released
    | inr released => cases List.mem_singleton.mp released
  declared := held.declared
  initialised := List.mem_append_right _ List.mem_cons_self

theorem Leaked.above (leaked : Leaked context s) (above : Above (context + 1) s s') : Leaked context s' := by
  refine ⟨leaked.toHeld.above above, ?_⟩
  obtain ⟨-, ops, same, -⟩ := above
  rw [same]
  exact List.mem_append_left _ leaked.initialised

theorem Held.clean {prog : Trace → Trace} (held : Held context s) (clean : Clean prog) : Held context (prog s) :=
  held.above (clean (context + 1) s held.declared).above

theorem Leaked.clean {prog : Trace → Trace} (leaked : Leaked context s) (clean : Clean prog) : Leaked context (prog s) :=
  leaked.above (clean (context + 1) s leaked.declared).above

theorem Leaked.hashPar (leaked : Leaked context s) (parLevel : Nat) : Leaked context (hashPar parLevel s) :=
  leaked.above (hashParAbove parLevel leaked.declared)

theorem Held.hashPar (held : Held context s) (parLevel : Nat) : Held context (hashPar parLevel s) :=
  held.above (hashParAbove parLevel held.declared)

end Leaks

theorem signRoundHeld (csprngState i : Nat) {s : Nat × Trace} (held : Held csprngState s.2) :
    Held csprngState (Sve2.signRound p csprngState i s).2 := by
  unfold Sve2.signRound
  dsimp only
  split
  · exact (held.init.toHeld.hashPar _).hashPar _
  · exact held.init.toHeld

theorem sve2SignLeaks : Leaked 0 (Sve2.sign p) := by
  unfold Sve2.sign Trace.declare
  have begun : Held 0 { Trace.empty with next := 1 } := ⟨List.not_mem_nil, Nat.one_pos⟩
  have expanded := (begun.clean expandSkClean).clean (sve2GenSeedTreeClean p)
  have rounds : ∀ s : Nat × Trace, Held 0 s.2 → Held 0 (Loop.upTo p.t (Sve2.signRound p 0) s).2 := fun s here =>
    Loop.upToInvariant (fun _ (s : Nat × Trace) => Held 0 s.2) here fun i _ _ here => signRoundHeld p 0 i here
  have committed := ((rounds (0, _) expanded).clean (sve2TreeRootClean p)).clean hashCommitmentsClean
  have leaks := (committed.init.clean hashClean).clean expandDigestClean
  exact leaks

theorem verifyRoundLeaks (challenge : Mem) (csprngState i : Nat) {s : VerifyQueues} (leaked : Leaked csprngState s.trace) :
    Leaked csprngState (Sve2.verifyRound p challenge csprngState i s).trace := by
  unfold Sve2.verifyRound
  have drawn : Leaked csprngState (if challenge i = 1 then
      { s with toHashCmt1 := s.toHashCmt1 + 1, trace := csprngInitialize csprngState s.trace }
      else { s with toHashCmt0 := s.toHashCmt0 + 1 } : VerifyQueues).trace := by
    split
    · exact leaked.toHeld.init
    · exact leaked
  generalize (if challenge i = 1 then
      { s with toHashCmt1 := s.toHashCmt1 + 1, trace := csprngInitialize csprngState s.trace }
      else { s with toHashCmt0 := s.toHashCmt0 + 1 } : VerifyQueues) = queued at drawn
  dsimp only
  split
  · split
    · exact (drawn.hashPar _).hashPar _
    · exact drawn.hashPar _
  · split
    · exact drawn.hashPar _
    · exact drawn

theorem sve2VerifyLeaks (challenge : Mem) : Leaked 0 (Sve2.verify p challenge) := by
  have begun : Held 0 { Trace.empty with next := 1 } := ⟨List.not_mem_nil, Nat.one_pos⟩
  have drawn := (((begun.clean expandPkClean).clean hashClean).clean hashClean).init
  have rebuilt := (drawn.clean expandDigestClean).clean (sve2RebuildTreeClean p challenge)
  have rounds : ∀ s : VerifyQueues, Leaked 0 s.trace →
      Leaked 0 (Loop.upTo p.t (Sve2.verifyRound p challenge 0) s).trace :=
    fun s here => Loop.upToInvariant (fun _ (s : VerifyQueues) => Leaked 0 s.trace) here fun i _ _ here =>
      verifyRoundLeaks p challenge 0 i here
  have recomputed := (rounds ⟨0, 0, _⟩ rebuilt).clean (sve2RecomputeRootClean p challenge)
  exact ((recomputed.clean hashClean).clean hashClean).clean hashClean

theorem sve2NeverBalanced (category : Category) (challenge : Mem) :
    ¬ Balanced (Sve2.sign category.parameters).ops ∧ ¬ Balanced (Sve2.verify category.parameters challenge).ops := by
  have signing := sve2SignLeaks category.parameters
  have verifying := sve2VerifyLeaks category.parameters challenge
  exact ⟨Contexts.unreleased signing.initialised signing.held, Contexts.unreleased verifying.initialised verifying.held⟩

theorem sve2SignUnbalanced : ¬ ∀ (category : Category) (challenge : Mem),
    Balanced (Sve2.sign category.parameters).ops ∧ Balanced (Sve2.verify category.parameters challenge).ops := by
  intro balanced
  have signing := sve2SignLeaks category1
  exact Contexts.unreleased signing.initialised signing.held (balanced .one fun _ => 1).1

end Armor.Cross.ContextTrace
