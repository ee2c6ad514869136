import Armor.Cross.Completeness

/-! The hash queues of `CROSS_sign` and `CROSS_verify`, byte by byte, for any number of rounds.
A slot keeps what earlier rounds left in it; the salt is placed once, before the loop. -/
namespace Armor.Cross.Queues

variable {synd vG seed saltLen : Nat} {δ : Type}

structure RoundBytes (synd vG seed : Nat) where
  sPrime : Block synd
  vGBar : Block vG
  roundSeed : Block seed

structure Output (δ : Type) where
  array : Nat → δ
  calls : List HashJob

section Calls

variable (hash : Bytes → UInt16 → δ)

def call (job : HashJob) (o : Output δ) : Output δ :=
  ⟨Function.update o.array job.roundIdx (hash job.input job.dsc), o.calls ++ [job]⟩

def hashPar (level : Nat) (first second : HashJob) (o : Output δ) : Output δ :=
  match level with
  | 1 => call hash first o
  | 2 => call hash second (call hash first o)
  | _ => o

end Calls

def hashDsc (t i : Nat) : UInt16 := hashDomainSepConst + UInt16.ofNat i + UInt16.ofNat (2 * t - 1)

structure Hashed (hash : Bytes → UInt16 → δ) (own : Nat → HashJob) (turns : List Nat) (base : Nat → δ)
    (o : Output δ) : Prop where
  calls : o.calls = turns.map own
  written : ∀ i, o.array i = if i ∈ turns then hash (own i).input (own i).dsc else base i

section Outputs

variable {hash : Bytes → UInt16 → δ} {own : Nat → HashJob} {turns : List Nat} {base : Nat → δ} {o : Output δ}

theorem hashedCall (inv : Hashed hash own turns base o) {i : Nat} (slot : (own i).roundIdx = i) :
    Hashed hash own (turns ++ [i]) base (call hash (own i) o) := by
  refine ⟨?_, fun j => ?_⟩
  · simp only [call, inv.calls, List.map_append, List.map_cons, List.map_nil]
  · simp only [call, slot, List.mem_append, List.mem_singleton]
    by_cases here : j = i
    · rw [here, Function.update_self, if_pos (.inr rfl)]
    · rw [Function.update_of_ne here, inv.written]
      simp only [here, or_false]

theorem hashedDirect (inv : Hashed hash own turns base o) {i : Nat} (other : i ∉ turns) (d : δ) :
    Hashed hash own turns (Function.update base i d) { o with array := Function.update o.array i d } := by
  refine ⟨inv.calls, fun j => ?_⟩
  by_cases here : j = i
  · subst here
    dsimp only
    rw [Function.update_self, if_neg other, Function.update_self]
  · dsimp only
    rw [Function.update_of_ne here, Function.update_of_ne here, inv.written]

theorem callsRun (jobs : List HashJob) (o : Output δ) :
    (jobs.foldl (fun o job => call hash job o) o).calls = o.calls ++ jobs := by
  induction jobs generalizing o with
  | nil => simp
  | cons job jobs ih =>
    rw [List.foldl_cons, ih]
    simp [call]

theorem directRun (jobs : List HashJob) {i : Nat} (other : ∀ job ∈ jobs, job.roundIdx ≠ i) (d : δ) (o : Output δ) :
    jobs.foldl (fun o job => call hash job o) { o with array := Function.update o.array i d } =
      { jobs.foldl (fun o job => call hash job o) o with
        array := Function.update (jobs.foldl (fun o job => call hash job o) o).array i d } := by
  induction jobs generalizing o with
  | nil => rfl
  | cons job jobs ih =>
    have apart : i ≠ job.roundIdx := (other job List.mem_cons_self).symm
    have swap : call hash job { o with array := Function.update o.array i d } =
        { call hash job o with array := Function.update (call hash job o).array i d } := by
      simp only [call, Function.update_comm apart]
    rw [List.foldl_cons, List.foldl_cons, swap]
    exact ih (fun job member => other job (List.mem_cons_of_mem _ member)) _

end Outputs

section Inputs

variable {a b c : Nat} {salt : Block c}

theorem inputOne (m : Mem) (x : Block a) (salted : m.block a c = salt) :
    ((m.store 0 x).block 0 (a + c)).toList = x.toList ++ salt.toList := by
  rw [Mem.blockAppend, Mem.blockStore, Nat.zero_add, Mem.blockStoreApart m 0 x a c (.inr (by omega)), salted]

theorem inputTwo {m : Mem} {x : Block a} {y : Block b} (first : m.block 0 a = x) (second : m.block a b = y)
    (salted : m.block (a + b) c = salt) :
    (m.block 0 (a + b + c)).toList = x.toList ++ y.toList ++ salt.toList := by
  rw [Mem.blockAppend, Mem.blockAppend, Nat.zero_add, Nat.zero_add, first, second, salted]

end Inputs

variable (salt : Block saltLen) (t : Nat) (rounds : Nat → RoundBytes synd vG seed)

def ownJob0 (i : Nat) : HashJob :=
  ⟨i, (rounds i).sPrime.toList ++ (rounds i).vGBar.toList ++ salt.toList, hashDsc t i⟩

def ownJob1 (i : Nat) : HashJob := ⟨i, (rounds i).roundSeed.toList ++ salt.toList, hashDsc t i⟩

namespace Sign

structure Slot where
  roundIdx : Nat
  cmt0Input : Mem
  cmt0Dsc : UInt16
  cmt1Input : Mem
  cmt1Dsc : UInt16

def placeSalt (synd vG seed : Nat) (slots : Nat → Slot) : Nat → Slot :=
  Loop.upTo 2 (fun instance_ slots => Function.update slots instance_
    { slots instance_ with
      cmt0Input := (slots instance_).cmt0Input.store (synd + vG) salt
      cmt1Input := (slots instance_).cmt1Input.store seed salt }) slots

def write (i : Nat) (b : Slot) : Slot where
  roundIdx := i
  cmt0Input := (b.cmt0Input.store 0 (rounds i).sPrime).store synd (rounds i).vGBar
  cmt0Dsc := hashDsc t i
  cmt1Input := b.cmt1Input.store 0 (rounds i).roundSeed
  cmt1Dsc := hashDsc t i

def job0 (synd vG saltLen : Nat) (b : Slot) : HashJob :=
  ⟨b.roundIdx, (b.cmt0Input.block 0 (synd + vG + saltLen)).toList, b.cmt0Dsc⟩

def job1 (seed saltLen : Nat) (b : Slot) : HashJob :=
  ⟨b.roundIdx, (b.cmt1Input.block 0 (seed + saltLen)).toList, b.cmt1Dsc⟩

variable (hash : Bytes → UInt16 → δ)

def hashBoth (synd vG seed saltLen : Nat) (q : Batch.Buffer Slot) (o : Output δ × Output δ) : Output δ × Output δ :=
  (hashPar hash q.count (job0 synd vG saltLen (q.slot 0)) (job0 synd vG saltLen (q.slot 1)) o.1,
    hashPar hash q.count (job1 seed saltLen (q.slot 0)) (job1 seed saltLen (q.slot 1)) o.2)

abbrev State (δ : Type) := Batch.Buffer Slot × (Output δ × Output δ)

def round (saltLen i : Nat) (s : State δ) : State δ :=
  Batch.Buffer.drainWhen (hashBoth hash synd vG seed saltLen) (decide (i = t - 1)) (s.1.fill (write t rounds i), s.2)

def start (synd vG seed : Nat) (slots : Nat → Slot) (cmt0 cmt1 : Nat → δ) : State δ :=
  (⟨0, placeSalt salt synd vG seed slots, []⟩, ⟨cmt0, []⟩, ⟨cmt1, []⟩)

def run (slots : Nat → Slot) (cmt0 cmt1 : Nat → δ) : State δ :=
  Loop.upTo t (round t rounds hash saltLen) (start salt synd vG seed slots cmt0 cmt1)

def Salted (synd vG seed : Nat) (b : Slot) : Prop :=
  b.cmt0Input.block (synd + vG) saltLen = salt ∧ b.cmt1Input.block seed saltLen = salt

variable {salt t rounds hash}

theorem placedSalt (slots : Nat → Slot) : ∀ k < 2, Salted salt synd vG seed (placeSalt salt synd vG seed slots k) := by
  refine Loop.upToInvariant (fun count (out : Nat → Slot) => ∀ k < count, Salted salt synd vG seed (out k))
    (fun k below => absurd below (Nat.not_lt_zero k)) fun count _ out here k below => ?_
  by_cases last : k = count
  · rw [last, Function.update_self]
    exact ⟨Mem.blockStore _ _ _, Mem.blockStore _ _ _⟩
  · rw [Function.update_of_ne last]
    exact here k (by omega)

theorem writeSalted (i : Nat) {b : Slot} (salted : Salted salt synd vG seed b) :
    Salted salt synd vG seed (write t rounds i b) := by
  constructor
  · rw [← salted.1, write, Mem.blockStoreApart _ _ _ _ _ (.inr (Nat.le_refl _)),
      Mem.blockStoreApart _ _ _ _ _ (.inr (by omega))]
  · rw [← salted.2, write, Mem.blockStoreApart _ _ _ _ _ (.inr (by omega))]

theorem writeJobs (i : Nat) {b : Slot} (salted : Salted salt synd vG seed b) :
    job0 synd vG saltLen (write t rounds i b) = ownJob0 salt t rounds i ∧
      job1 seed saltLen (write t rounds i b) = ownJob1 salt t rounds i := by
  have kept : Salted salt synd vG seed (write t rounds i b) := writeSalted i salted
  have first : (write t rounds i b).cmt0Input.block 0 synd = (rounds i).sPrime := by
    rw [write, Mem.blockStoreApart _ _ _ _ _ (.inl (by omega)), Mem.blockStore]
  have input0 := inputTwo first (Mem.blockStore _ _ _) kept.1
  have input1 := inputOne b.cmt1Input (rounds i).roundSeed salted.2
  exact ⟨congrArg (fun input => HashJob.mk i input (hashDsc t i)) input0,
    congrArg (fun input => HashJob.mk i input (hashDsc t i)) input1⟩

def callBoth (hash : Bytes → UInt16 → δ) (jobs : HashJob × HashJob) (o : Output δ × Output δ) : Output δ × Output δ :=
  (call hash jobs.1 o.1, call hash jobs.2 o.2)

def jobsOf (synd vG seed saltLen : Nat) (b : Slot) : HashJob × HashJob := (job0 synd vG saltLen b, job1 seed saltLen b)

theorem hashBothRuns (q : Batch.Buffer Slot) (fits : q.count ≤ 2) (o : Output δ × Output δ) :
    hashBoth hash synd vG seed saltLen q o =
      Batch.Buffer.settled (callBoth hash) (jobsOf synd vG seed saltLen) (q, o) := by
  unfold hashBoth Batch.Buffer.settled Batch.Buffer.jobs
  match q.count, fits with
  | 0, _ => rfl
  | 1, _ => rfl
  | 2, _ => rfl

structure Inv (salt : Block saltLen) (t : Nat) (rounds : Nat → RoundBytes synd vG seed) (hash : Bytes → UInt16 → δ)
    (cmt0 cmt1 : Nat → δ) (i : Nat) (s : State δ) : Prop where
  room : s.1.count < 2
  sound : s.1.Sound (Salted salt synd vG seed)
  done0 : Hashed hash (ownJob0 salt t rounds) (List.range i) cmt0
    (Batch.Buffer.settled (callBoth hash) (jobsOf synd vG seed saltLen) s).1
  done1 : Hashed hash (ownJob1 salt t rounds) (List.range i) cmt1
    (Batch.Buffer.settled (callBoth hash) (jobsOf synd vG seed saltLen) s).2
  drained : i = t → s.1.count = 0

theorem roundInv {cmt0 cmt1 : Nat → δ} {i : Nat} {s : State δ}
    (inv : Inv salt t rounds hash cmt0 cmt1 i s) :
    Inv salt t rounds hash cmt0 cmt1 (i + 1) (round t rounds hash saltLen i s) := by
  have fits : (s.1.fill (write t rounds i)).count ≤ 2 := inv.room
  have salted := inv.sound.slots _ inv.room
  have jobs : jobsOf synd vG seed saltLen (write t rounds i (s.1.slot s.1.count)) =
      (ownJob0 salt t rounds i, ownJob1 salt t rounds i) :=
    Prod.ext (writeJobs i salted).1 (writeJobs i salted).2
  have settled : Batch.Buffer.settled (callBoth hash) (jobsOf synd vG seed saltLen) (round t rounds hash saltLen i s) =
      callBoth hash (ownJob0 salt t rounds i, ownJob1 salt t rounds i)
        (Batch.Buffer.settled (callBoth hash) (jobsOf synd vG seed saltLen) s) := by
    rw [round, Batch.Buffer.settledDrain hashBothRuns fits, Batch.Buffer.settledFill, jobs]
  constructor
  · exact Batch.Buffer.drainRoom fits _
  · have filled : (s.1.fill (write t rounds i)).Sound (Salted salt synd vG seed) :=
      Batch.Buffer.soundFill (fun _ salted => writeSalted i salted) inv.sound inv.room
    exact Batch.Buffer.soundDrain filled _
  · rw [settled, List.range_succ]
    exact hashedCall inv.done0 rfl
  · rw [settled, List.range_succ]
    exact hashedCall inv.done1 rfl
  · intro last
    rw [round, decide_eq_true (show i = t - 1 by omega)]
    exact Batch.Buffer.drainLast _

theorem runInv (positive : 1 ≤ t) (slots : Nat → Slot) (cmt0 cmt1 : Nat → δ) :
    Inv salt t rounds hash cmt0 cmt1 t (run salt t rounds hash slots cmt0 cmt1) := by
  refine Loop.upToInvariant (Inv salt t rounds hash cmt0 cmt1) ?_ fun i _ s inv => roundInv inv
  refine ⟨Nat.zero_lt_two, ⟨placedSalt slots, nofun⟩, ?_, ?_, fun none => absurd none (by omega)⟩
  · exact ⟨rfl, fun i => by simp [start, Batch.Buffer.settled, Batch.Buffer.jobs]⟩
  · exact ⟨rfl, fun i => by simp [start, Batch.Buffer.settled, Batch.Buffer.jobs]⟩

end Sign

namespace Verify

structure Slot where
  roundIdx : Nat
  input : Mem
  dsc : UInt16

def placeSalt (offset : Nat) (slots : Nat → Slot) : Nat → Slot :=
  Loop.upTo 2 (fun instance_ slots => Function.update slots instance_
    { slots instance_ with input := (slots instance_).input.store offset salt }) slots

variable (chall2 : Mem) (resp0 : Nat → Block vG) (resp1 : Nat → δ) (hash : Bytes → UInt16 → δ)

def write1 (i : Nat) (b : Slot) : Slot := ⟨i, b.input.store 0 (rounds i).roundSeed, hashDsc t i⟩

def write0 (i : Nat) (vGBar : Block vG) (b : Slot) : Slot :=
  ⟨i, (b.input.store synd vGBar).store 0 (rounds i).sPrime, hashDsc t i⟩

def job (length : Nat) (b : Slot) : HashJob := ⟨b.roundIdx, (b.input.block 0 length).toList, b.dsc⟩

def hashQueue (length : Nat) (q : Batch.Buffer Slot) (o : Output δ) : Output δ :=
  hashPar hash q.count (job length (q.slot 0)) (job length (q.slot 1)) o

structure State (δ : Type) where
  queue1 : Batch.Buffer Slot
  queue0 : Batch.Buffer Slot
  cmt1 : Output δ
  cmt0 : Output δ
  usedRsps : Nat

def body (i : Nat) (s : State δ) : State δ :=
  if chall2 i = 1 then { s with queue1 := s.queue1.fill (write1 t rounds i) }
  else
    { s with
      queue0 := s.queue0.fill (write0 t rounds i (resp0 s.usedRsps))
      cmt1 := { s.cmt1 with array := Function.update s.cmt1.array i (resp1 s.usedRsps) }
      usedRsps := s.usedRsps + 1 }

def flush (synd vG seed saltLen i : Nat) (s : State δ) : State δ :=
  let last := decide (i = t - 1)
  let flushed1 := Batch.Buffer.drainWhen (hashQueue hash (seed + saltLen)) last (s.queue1, s.cmt1)
  let flushed0 := Batch.Buffer.drainWhen (hashQueue hash (synd + vG + saltLen)) last (s.queue0, s.cmt0)
  { s with queue1 := flushed1.1, cmt1 := flushed1.2, queue0 := flushed0.1, cmt0 := flushed0.2 }

def round (saltLen i : Nat) (s : State δ) : State δ :=
  flush t hash synd vG seed saltLen i (body t rounds chall2 resp0 resp1 i s)

def start (synd vG seed : Nat) (slots1 slots0 : Nat → Slot) (cmt1 cmt0 : Nat → δ) : State δ :=
  ⟨⟨0, placeSalt salt seed slots1, []⟩, ⟨0, placeSalt salt (synd + vG) slots0, []⟩, ⟨cmt1, []⟩, ⟨cmt0, []⟩, 0⟩

def run (slots1 slots0 : Nat → Slot) (cmt1 cmt0 : Nat → δ) : State δ :=
  Loop.upTo t (round t rounds chall2 resp0 resp1 hash saltLen) (start salt synd vG seed slots1 slots0 cmt1 cmt0)

def ones (n : Nat) : List Nat := (List.range n).filter fun i => chall2 i = 1
def zeros (n : Nat) : List Nat := (List.range n).filter fun i => chall2 i ≠ 1

def answered (i : Nat) : RoundBytes synd vG seed := { rounds i with vGBar := resp0 (zeros chall2 i).length }

def copied (cmt1 : Nat → δ) (n i : Nat) : δ := if i ∈ zeros chall2 n then resp1 (zeros chall2 i).length else cmt1 i

theorem onesSucc (n : Nat) : ones chall2 (n + 1) = if chall2 n = 1 then ones chall2 n ++ [n] else ones chall2 n := by
  rw [ones, List.range_succ, List.filter_append, ← ones]
  by_cases one : chall2 n = 1
  · simp [one]
  · simp [one]

theorem zerosSucc (n : Nat) : zeros chall2 (n + 1) = if chall2 n = 1 then zeros chall2 n else zeros chall2 n ++ [n] := by
  rw [zeros, List.range_succ, List.filter_append, ← zeros]
  by_cases one : chall2 n = 1
  · simp [one]
  · simp [one]

variable {chall2 resp0 resp1 hash salt t rounds}

theorem memOnes {n i : Nat} : i ∈ ones chall2 n ↔ i < n ∧ chall2 i = 1 := by
  simp [ones]

theorem memZeros {n i : Nat} : i ∈ zeros chall2 n ↔ i < n ∧ chall2 i ≠ 1 := by
  simp [zeros]

theorem copiedOne {cmt1 : Nat → δ} {n : Nat} (one : chall2 n = 1) :
    copied chall2 resp1 cmt1 (n + 1) = copied chall2 resp1 cmt1 n := by
  funext i
  rw [copied, zerosSucc, if_pos one, ← copied]

theorem copiedZero {cmt1 : Nat → δ} {n : Nat} (zero : chall2 n ≠ 1) :
    copied chall2 resp1 cmt1 (n + 1) =
      Function.update (copied chall2 resp1 cmt1 n) n (resp1 (zeros chall2 n).length) := by
  funext i
  by_cases here : i = n
  · rw [here, Function.update_self, copied, if_pos (memZeros.mpr ⟨Nat.lt_succ_self n, zero⟩)]
  · rw [Function.update_of_ne here, copied, copied, zerosSucc, if_neg zero]
    simp only [List.mem_append, List.mem_singleton, here, or_false]

def Salted (salt : Block saltLen) (offset : Nat) (b : Slot) : Prop := b.input.block offset saltLen = salt

theorem placedSalt (offset : Nat) (slots : Nat → Slot) : ∀ k < 2, Salted salt offset (placeSalt salt offset slots k) := by
  refine Loop.upToInvariant (fun count (out : Nat → Slot) => ∀ k < count, Salted salt offset (out k))
    (fun k below => absurd below (Nat.not_lt_zero k)) fun count _ out here k below => ?_
  by_cases last : k = count
  · rw [last, Function.update_self]
    exact Mem.blockStore _ _ _
  · rw [Function.update_of_ne last]
    exact here k (by omega)

theorem write1Salted (i : Nat) {b : Slot} (salted : Salted salt seed b) : Salted salt seed (write1 t rounds i b) := by
  rw [Salted, write1, Mem.blockStoreApart _ _ _ _ _ (.inr (by omega))]
  exact salted

theorem write0Salted (i : Nat) (vGBar : Block vG) {b : Slot} (salted : Salted salt (synd + vG) b) :
    Salted salt (synd + vG) (write0 t rounds i vGBar b) := by
  rw [Salted, write0, Mem.blockStoreApart _ _ _ _ _ (.inr (by omega)),
    Mem.blockStoreApart _ _ _ _ _ (.inr (Nat.le_refl _))]
  exact salted

theorem write1Job (i : Nat) {b : Slot} (salted : Salted salt seed b) :
    job (seed + saltLen) (write1 t rounds i b) = ownJob1 salt t rounds i :=
  congrArg (fun input => HashJob.mk i input (hashDsc t i)) (inputOne b.input (rounds i).roundSeed salted)

theorem write0Job (i : Nat) {b : Slot} (salted : Salted salt (synd + vG) b) :
    job (synd + vG + saltLen) (write0 t rounds i (resp0 (zeros chall2 i).length) b) =
      ownJob0 salt t (answered rounds chall2 resp0) i := by
  have kept : Salted salt (synd + vG) (write0 t rounds i (resp0 (zeros chall2 i).length) b) := write0Salted i _ salted
  have second : (write0 t rounds i (resp0 (zeros chall2 i).length) b).input.block synd vG =
      resp0 (zeros chall2 i).length := by
    rw [write0, Mem.blockStoreApart _ _ _ _ _ (.inr (by omega)), Mem.blockStore]
  exact congrArg (fun input => HashJob.mk i input (hashDsc t i)) (inputTwo (Mem.blockStore _ _ _) second kept)

theorem hashQueueRuns (length : Nat) (q : Batch.Buffer Slot) (fits : q.count ≤ 2) (o : Output δ) :
    hashQueue hash length q o = Batch.Buffer.settled (call hash) (job length) (q, o) := by
  unfold hashQueue Batch.Buffer.settled Batch.Buffer.jobs
  match q.count, fits with
  | 0, _ => rfl
  | 1, _ => rfl
  | 2, _ => rfl

structure Inv (salt : Block saltLen) (t : Nat) (rounds : Nat → RoundBytes synd vG seed) (chall2 : Mem)
    (resp0 : Nat → Block vG) (resp1 : Nat → δ) (hash : Bytes → UInt16 → δ) (cmt1 cmt0 : Nat → δ) (i : Nat)
    (s : State δ) : Prop where
  sound1 : s.queue1.Sound (Salted salt seed)
  sound0 : s.queue0.Sound (Salted salt (synd + vG))
  done1 : Hashed hash (ownJob1 salt t rounds) (ones chall2 i) (copied chall2 resp1 cmt1 i)
    (Batch.Buffer.settled (call hash) (job (seed + saltLen)) (s.queue1, s.cmt1))
  done0 : Hashed hash (ownJob0 salt t (answered rounds chall2 resp0)) (zeros chall2 i) cmt0
    (Batch.Buffer.settled (call hash) (job (synd + vG + saltLen)) (s.queue0, s.cmt0))
  used : s.usedRsps = (zeros chall2 i).length

structure Drained (t i : Nat) (s : State δ) : Prop where
  room1 : s.queue1.count < 2
  room0 : s.queue0.count < 2
  drained : i = t → s.queue1.count = 0 ∧ s.queue0.count = 0

variable {cmt1 cmt0 : Nat → δ} {i : Nat} {s : State δ}

theorem Inv.earlier (inv : Inv salt t rounds chall2 resp0 resp1 hash cmt1 cmt0 i s) :
    ∀ queued ∈ s.queue1.jobs (job (seed + saltLen)), queued.roundIdx ≠ i := by
  intro queued member
  have calls := inv.done1.calls
  rw [Batch.Buffer.settled, callsRun] at calls
  have listed : queued ∈ (ones chall2 i).map (ownJob1 salt t rounds) := by
    rw [← calls]
    exact List.mem_append_right _ member
  obtain ⟨k, turn, rfl⟩ := List.mem_map.mp listed
  exact Nat.ne_of_lt (memOnes.mp turn).1

theorem bodyInv (inv : Inv salt t rounds chall2 resp0 resp1 hash cmt1 cmt0 i s) (room1 : s.queue1.count < 2)
    (room0 : s.queue0.count < 2) :
    Inv salt t rounds chall2 resp0 resp1 hash cmt1 cmt0 (i + 1) (body t rounds chall2 resp0 resp1 i s) ∧
      (body t rounds chall2 resp0 resp1 i s).queue1.count ≤ 2 ∧
      (body t rounds chall2 resp0 resp1 i s).queue0.count ≤ 2 := by
  unfold body
  split
  · rename_i one
    refine ⟨⟨?_, inv.sound0, ?_, ?_, ?_⟩, room1, Nat.le_of_lt room0⟩
    · exact Batch.Buffer.soundFill (fun _ salted => write1Salted i salted) inv.sound1 room1
    · rw [Batch.Buffer.settledFill, write1Job i (inv.sound1.slots _ room1), onesSucc, if_pos one, copiedOne one]
      exact hashedCall inv.done1 rfl
    · rw [zerosSucc, if_pos one]
      exact inv.done0
    · rw [zerosSucc, if_pos one]
      exact inv.used
  · rename_i zero
    refine ⟨⟨inv.sound1, ?_, ?_, ?_, ?_⟩, Nat.le_of_lt room1, room0⟩
    · exact Batch.Buffer.soundFill (fun _ salted => write0Salted i _ salted) inv.sound0 room0
    · have direct := @directRun δ hash _ i inv.earlier (resp1 (zeros chall2 i).length) s.cmt1
      rw [onesSucc, if_neg zero, copiedZero zero, Batch.Buffer.settled, inv.used, direct]
      exact hashedDirect inv.done1 (fun turn => zero (memOnes.mp turn).2) _
    · rw [Batch.Buffer.settledFill, inv.used, write0Job i (inv.sound0.slots _ room0), zerosSucc, if_neg zero]
      exact hashedCall inv.done0 rfl
    · rw [zerosSucc, if_neg zero, List.length_append, inv.used]
      rfl

theorem flushInv (inv : Inv salt t rounds chall2 resp0 resp1 hash cmt1 cmt0 (i + 1) s) (fits1 : s.queue1.count ≤ 2)
    (fits0 : s.queue0.count ≤ 2) :
    Inv salt t rounds chall2 resp0 resp1 hash cmt1 cmt0 (i + 1) (flush t hash synd vG seed saltLen i s) ∧
      (flush t hash synd vG seed saltLen i s).queue1.count < 2 ∧
      (flush t hash synd vG seed saltLen i s).queue0.count < 2 := by
  have runs : ∀ length (q : Batch.Buffer Slot), q.count ≤ 2 → ∀ o : Output δ, hashQueue hash length q o =
      Batch.Buffer.settled (call hash) (job length) (q, o) := hashQueueRuns
  have settled1 := Batch.Buffer.settledDrain (s := (s.queue1, s.cmt1)) (runs (seed + saltLen)) fits1 (decide (i = t - 1))
  have settled0 := Batch.Buffer.settledDrain (s := (s.queue0, s.cmt0)) (runs (synd + vG + saltLen)) fits0
    (decide (i = t - 1))
  refine ⟨⟨Batch.Buffer.soundDrain inv.sound1 _, Batch.Buffer.soundDrain inv.sound0 _, ?_, ?_, inv.used⟩,
    Batch.Buffer.drainRoom fits1 _, Batch.Buffer.drainRoom fits0 _⟩
  · exact settled1 ▸ inv.done1
  · exact settled0 ▸ inv.done0

theorem flushLast (last : i = t - 1) (s : State δ) : (flush t hash synd vG seed saltLen i s).queue1.count = 0 ∧
    (flush t hash synd vG seed saltLen i s).queue0.count = 0 := by
  unfold flush
  rw [decide_eq_true last]
  exact ⟨Batch.Buffer.drainLast _, Batch.Buffer.drainLast _⟩

theorem startInv (slots1 slots0 : Nat → Slot) (cmt1 cmt0 : Nat → δ) :
    Inv salt t rounds chall2 resp0 resp1 hash cmt1 cmt0 0 (start salt synd vG seed slots1 slots0 cmt1 cmt0) := by
  refine ⟨⟨placedSalt seed slots1, nofun⟩, ⟨placedSalt (synd + vG) slots0, nofun⟩, ?_, ?_, rfl⟩
  · exact ⟨rfl, fun i => by simp [start, Batch.Buffer.settled, Batch.Buffer.jobs, ones, copied, zeros]⟩
  · exact ⟨rfl, fun i => by simp [start, Batch.Buffer.settled, Batch.Buffer.jobs, zeros]⟩

theorem runInv (positive : 1 ≤ t) (slots1 slots0 : Nat → Slot) (cmt1 cmt0 : Nat → δ) :
    let s := run salt t rounds chall2 resp0 resp1 hash slots1 slots0 cmt1 cmt0
    Inv salt t rounds chall2 resp0 resp1 hash cmt1 cmt0 t s ∧ s.queue1.count = 0 ∧ s.queue0.count = 0 := by
  have all : Inv salt t rounds chall2 resp0 resp1 hash cmt1 cmt0 t
        (run salt t rounds chall2 resp0 resp1 hash slots1 slots0 cmt1 cmt0) ∧ Drained t t
        (run salt t rounds chall2 resp0 resp1 hash slots1 slots0 cmt1 cmt0) := by
    refine Loop.upToInvariant (fun i s => Inv salt t rounds chall2 resp0 resp1 hash cmt1 cmt0 i s ∧ Drained t i s)
      ⟨startInv slots1 slots0 cmt1 cmt0, Nat.zero_lt_two, Nat.zero_lt_two, fun _ => ⟨rfl, rfl⟩⟩ fun i _ s here => ?_
    obtain ⟨queued, fits1, fits0⟩ := bodyInv here.1 here.2.room1 here.2.room0
    obtain ⟨inv, room1, room0⟩ := flushInv queued fits1 fits0
    exact ⟨inv, room1, room0, fun last => flushLast (by omega) _⟩
  exact ⟨all.1, all.2.drained rfl⟩

end Verify
structure SignBatched (salt : Block saltLen) (t : Nat) (rounds : Nat → RoundBytes synd vG seed)
    (hash : Bytes → UInt16 → δ) (cmt0 cmt1 : Nat → δ) (s : Sign.State δ) : Prop where
  hashed0 : Hashed hash (ownJob0 salt t rounds) (List.range t) cmt0 s.2.1
  hashed1 : Hashed hash (ownJob1 salt t rounds) (List.range t) cmt1 s.2.2
  drained : s.1.count = 0
  inside : ∀ a ∈ s.1.used, a < 2

structure VerifyBatched (salt : Block saltLen) (t : Nat) (rounds : Nat → RoundBytes synd vG seed) (chall2 : Mem)
    (resp0 : Nat → Block vG) (resp1 : Nat → δ) (hash : Bytes → UInt16 → δ) (cmt1 cmt0 : Nat → δ)
    (s : Verify.State δ) : Prop where
  hashed1 : Hashed hash (ownJob1 salt t rounds) (Verify.ones chall2 t) (Verify.copied chall2 resp1 cmt1 t) s.cmt1
  hashed0 : Hashed hash (ownJob0 salt t (Verify.answered rounds chall2 resp0)) (Verify.zeros chall2 t) cmt0 s.cmt0
  drained : s.queue1.count = 0 ∧ s.queue0.count = 0
  inside1 : ∀ a ∈ s.queue1.used, a < 2
  inside0 : ∀ a ∈ s.queue0.used, a < 2

section Both

variable (hash : Bytes → UInt16 → δ) (salt : Block saltLen) {t : Nat} (rounds : Nat → RoundBytes synd vG seed)

theorem signRuns (positive : 1 ≤ t) (slots : Nat → Sign.Slot) (cmt0 cmt1 : Nat → δ) :
    SignBatched salt t rounds hash cmt0 cmt1 (Sign.run salt t rounds hash slots cmt0 cmt1) := by
  have inv := @Sign.runInv _ _ _ _ _ salt t rounds hash positive slots cmt0 cmt1
  have empty := inv.drained rfl
  have done0 := inv.done0
  have done1 := inv.done1
  rw [Batch.Buffer.settledEmpty empty] at done0 done1
  exact ⟨done0, done1, empty, inv.sound.inside⟩

theorem verifyRuns (positive : 1 ≤ t) (chall2 : Mem) (resp0 : Nat → Block vG) (resp1 : Nat → δ)
    (slots1 slots0 : Nat → Verify.Slot) (cmt1 cmt0 : Nat → δ) :
    VerifyBatched salt t rounds chall2 resp0 resp1 hash cmt1 cmt0
      (Verify.run salt t rounds chall2 resp0 resp1 hash slots1 slots0 cmt1 cmt0) := by
  obtain ⟨inv, empty1, empty0⟩ :=
    @Verify.runInv _ _ _ _ _ salt t rounds chall2 resp0 resp1 hash positive slots1 slots0 cmt1 cmt0
  have done1 := inv.done1
  have done0 := inv.done0
  rw [Batch.Buffer.settledEmpty empty1] at done1
  rw [Batch.Buffer.settledEmpty empty0] at done0
  exact ⟨done1, done0, ⟨empty1, empty0⟩, inv.sound1.inside, inv.sound0.inside⟩

/-- For any number of rounds and any challenge. While `T` fits the `uint16_t` counter the loops
on it make the same rounds; past that `LOG2(T)` has no value and the code does not compile. -/
theorem batchingLosesNothing (positive : 1 ≤ t) :
    (∀ (slots : Nat → Sign.Slot) (cmt0 cmt1 : Nat → δ),
      SignBatched salt t rounds hash cmt0 cmt1 (Sign.run salt t rounds hash slots cmt0 cmt1)) ∧
    (∀ (chall2 : Mem) (resp0 : Nat → Block vG) (resp1 : Nat → δ) (slots1 slots0 : Nat → Verify.Slot) (cmt1 cmt0 : Nat → δ),
      VerifyBatched salt t rounds chall2 resp0 resp1 hash cmt1 cmt0
        (Verify.run salt t rounds chall2 resp0 resp1 hash slots1 slots0 cmt1 cmt0)) ∧
    (t < 2 ^ 16 → ∀ fuel ≥ t,
      (∀ s : Sign.State δ, Loop.shortUpTo fuel t (Sign.round t rounds hash saltLen) s =
        some (UInt16.ofNat t, Loop.upTo t (Sign.round t rounds hash saltLen) s)) ∧
      ∀ (chall2 : Mem) (resp0 : Nat → Block vG) (resp1 : Nat → δ) (s : Verify.State δ),
        Loop.shortUpTo fuel t (Verify.round t rounds chall2 resp0 resp1 hash saltLen) s =
          some (UInt16.ofNat t, Loop.upTo t (Verify.round t rounds chall2 resp0 resp1 hash saltLen) s)) :=
  ⟨signRuns hash salt rounds positive, verifyRuns hash salt rounds positive, fun fits _ enough =>
    ⟨Loop.shortUpToRun fits enough _, fun _ _ _ => Loop.shortUpToRun fits enough _⟩⟩

theorem batchingLosesNothingFive :
    let rounds : Nat → RoundBytes 1 1 1 := fun i => ⟨Vector.replicate 1 (UInt8.ofNat i), Block.zero 1, Block.zero 1⟩
    let left : Nat → Sign.Slot := fun _ => ⟨7, fun _ => 7, 7, fun _ => 7, 7⟩
    let stale : Nat → Verify.Slot := fun _ => ⟨7, fun _ => 7, 7⟩
    let cmt : Nat → Bytes × UInt16 := fun _ => ([7], 7)
    let chall2 : Mem := fun i => UInt8.ofNat ((i + 1) % 2)
    let resp0 : Nat → Block 1 := fun j => Vector.replicate 1 (UInt8.ofNat j)
    let resp1 : Nat → Bytes × UInt16 := fun j => ([UInt8.ofNat j], 0)
    SignBatched (Block.zero 1) 5 rounds Prod.mk cmt cmt (Sign.run (Block.zero 1) 5 rounds Prod.mk left cmt cmt) ∧
      VerifyBatched (Block.zero 1) 5 rounds chall2 resp0 resp1 Prod.mk cmt cmt
        (Verify.run (Block.zero 1) 5 rounds chall2 resp0 resp1 Prod.mk stale stale cmt cmt) ∧
      ∀ s : Sign.State (Bytes × UInt16), Loop.shortUpTo 5 5 (Sign.round 5 rounds Prod.mk 1) s =
        some (UInt16.ofNat 5, Loop.upTo 5 (Sign.round 5 rounds Prod.mk 1) s) := by
  intro rounds left stale cmt chall2 resp0 resp1
  obtain ⟨signer, verifier, counted⟩ := batchingLosesNothing Prod.mk (Block.zero 1) rounds (by decide : 1 ≤ 5)
  exact ⟨signer left cmt cmt, verifier chall2 resp0 resp1 stale stale cmt cmt, (counted (by decide) 5 (Nat.le_refl 5)).1⟩

end Both

section Scheme

variable (p : Parameters) (shake : Shake)

theorem signerCommits (salt : Block p.saltLength) (roundSeeds : Nat → Block p.seedLength) (rounds : Nat → Round p)
    (slots : Nat → Sign.Slot) :
    let bytes := fun i => ⟨packFpSyn p (rounds i).sPrime, packFzRsdpGVec p (rounds i).vGBar, roundSeeds i⟩
    let s := Sign.run salt p.t bytes (Cross.hash p shake) slots (Commitments.zero p).cmt0 (Commitments.zero p).cmt1
    let cmts := Sve2.commitRounds p shake salt roundSeeds rounds
    ∀ i < p.t, s.2.1.array i = cmts.cmt0 i ∧ s.2.2.array i = cmts.cmt1 i := by
  intro bytes s cmts i below
  have batched := signRuns (Cross.hash p shake) salt bytes (Nat.lt_of_le_of_lt (Nat.zero_le i) below) slots
    (Commitments.zero p).cmt0 (Commitments.zero p).cmt1
  have same : cmts = Portable.commitRounds p shake salt roundSeeds rounds :=
    commitRoundsAgree p shake (.sve2 ⟨1, Nat.one_pos⟩) salt roundSeeds rounds
  have own := commitRoundsAt p shake salt roundSeeds rounds i below
  have turn := List.mem_range.mpr below
  rw [same, own.1, own.2, batched.hashed0.written, batched.hashed1.written, if_pos turn, if_pos turn]
  exact ⟨rfl, rfl⟩

structure Mirrors (length : Nat) (q : Batch.Queue HashJob) (out : Merkle.Digests p) (b : Batch.Buffer Verify.Slot)
    (o : Output (Block p.hashLength)) : Prop where
  count : q.count = b.count
  jobs : ∀ k < b.count, Verify.job length (b.slot k) = q.slot k
  array : o.array = out

variable {p shake} {length : Nat} {q : Batch.Queue HashJob} {out : Merkle.Digests p} {b : Batch.Buffer Verify.Slot}
  {o : Output (Block p.hashLength)}

theorem Mirrors.push (same : Mirrors p length q out b o) {write : Verify.Slot → Verify.Slot} {job : HashJob}
    (asks : Verify.job length (write (b.slot b.count)) = job) : Mirrors p length (q.push job) out (b.fill write) o := by
  refine ⟨congrArg (· + 1) same.count, fun k below => ?_, same.array⟩
  by_cases last : k = b.count
  · subst last
    rw [Batch.Buffer.fillSlot, asks, ← same.count]
    exact (Function.update_self q.count job q.slot).symm
  · have low : k < b.count := by
      have : k < b.count + 1 := below
      omega
    rw [Batch.Buffer.fillOther write b last, same.jobs k low]
    have other : k ≠ q.count := fun here => last (here.trans same.count)
    exact (Function.update_of_ne other job q.slot).symm

theorem Mirrors.write (same : Mirrors p length q out b o) (i : Nat) (d : Block p.hashLength) :
    Mirrors p length q (Function.update out i d) b { o with array := Function.update o.array i d } :=
  ⟨same.count, same.jobs, congrArg (fun array : Merkle.Digests p => Function.update array i d) same.array⟩

theorem Mirrors.flush (same : Mirrors p length q out b o) (fits : b.count ≤ 2) (last : Bool) :
    let flushed := Batch.flushWhen (hashQueued p shake id) 2 last (q, out)
    let drained := Batch.Buffer.drainWhen (Verify.hashQueue (Cross.hash p shake) length) last (b, o)
    Mirrors p length flushed.1 flushed.2 drained.1 drained.2 := by
  intro flushed drained
  simp only [flushed, drained, Batch.flushWhen, Batch.Buffer.drainWhen, same.count]
  split
  · refine ⟨rfl, fun k below => absurd below (Nat.not_lt_zero k), ?_⟩
    dsimp only
    rw [hashQueuedSettles p shake id q (by rw [same.count]; exact fits), Batch.settle, same.count, Verify.hashQueue]
    have jobs := same.jobs
    have counts : b.count = 0 ∨ b.count = 1 ∨ b.count = 2 := by omega
    obtain none | one | two := counts
    · rw [none]
      exact same.array
    · rw [one, jobs 0 (by omega), Loop.upToSucc, Loop.upToZero, ← same.array]
      rfl
    · rw [two, jobs 0 (by omega), jobs 1 (by omega), Loop.upToSucc, Loop.upToSucc, Loop.upToZero, ← same.array]
      rfl
  · exact same

variable (o : Opening p) (sig : CrossSig p) (length : VectorLength) (unwritten : Sve2.Unwritten p)

theorem roundOne {i : Nat} (one : o.chall2 i = 1) (s : Sve2.VerifyQueues p) :
    let next := Sve2.verifyRoundBody p shake o sig length unwritten i s
    next.queue1 = s.queue1.push (verifyJob1 p o sig i) ∧ next.queue0 = s.queue0 ∧ next.cmts = s.cmts ∧
      next.usedRsps = s.usedRsps := by
  dsimp only [Sve2.verifyRoundBody]
  rw [if_pos one]
  exact ⟨rfl, rfl, rfl, rfl⟩

theorem roundZero {i : Nat} (zero : o.chall2 i ≠ 1) (s : Sve2.VerifyQueues p) :
    let next := Sve2.verifyRoundBody p shake o sig length unwritten i s
    ∃ sPrime : Block p.denselyPackedFpSynSize, next.queue1 = s.queue1 ∧
      next.queue0 = s.queue0.push ⟨i, sPrime.toList ++ (resp0At p sig s.usedRsps).vGBar.toList ++ sig.salt.toList,
        roundHashDsc p i⟩ ∧
      next.cmts = { s.cmts with cmt1 := Function.update s.cmts.cmt1 i (resp1At p sig s.usedRsps) } ∧
      next.usedRsps = s.usedRsps + 1 := by
  dsimp only [Sve2.verifyRoundBody]
  rw [if_neg zero]
  exact ⟨_, rfl, rfl, rfl, rfl⟩

def schemeBytes (p : Parameters) (o : Opening p) (sig : CrossSig p) (sPrime : Nat → Block p.denselyPackedFpSynSize)
    (i : Nat) : RoundBytes p.denselyPackedFpSynSize p.denselyPackedFzRsdpGVecSize p.seedLength :=
  ⟨sPrime i, (resp0At p sig i).vGBar, o.roundSeeds i⟩

structure Linked (a : Sve2.VerifyQueues p) (s : Verify.State (Block p.hashLength)) : Prop where
  commit1 : Mirrors p (p.seedLength + p.saltLength) a.queue1 a.cmts.cmt1 s.queue1 s.cmt1
  commit0 : Mirrors p (p.denselyPackedFpSynSize + p.denselyPackedFzRsdpGVecSize + p.saltLength) a.queue0 a.cmts.cmt0
    s.queue0 s.cmt0
  used : a.usedRsps = s.usedRsps

section Simulation

variable (sPrime : Nat → Block p.denselyPackedFpSynSize) {cmt1 cmt0 : Merkle.Digests p} {i : Nat}
  {a : Sve2.VerifyQueues p} {s : Verify.State (Block p.hashLength)}

theorem linkedOne (one : o.chall2 i = 1)
    (inv : Verify.Inv sig.salt p.t (schemeBytes p o sig sPrime) o.chall2 (fun k => (resp0At p sig k).vGBar)
      (resp1At p sig) (Cross.hash p shake) cmt1 cmt0 i s) (room : s.queue1.count < 2) (linked : Linked a s) :
    Linked (Sve2.verifyRoundBody p shake o sig length unwritten i a)
      (Verify.body p.t (schemeBytes p o sig sPrime) o.chall2 (fun k => (resp0At p sig k).vGBar) (resp1At p sig) i s) := by
  obtain ⟨queue1, queue0, cmts, used⟩ := @roundOne p shake o sig length unwritten i one a
  have asks : Verify.job (p.seedLength + p.saltLength) (Verify.write1 p.t (schemeBytes p o sig sPrime) i
      (s.queue1.slot s.queue1.count)) = verifyJob1 p o sig i := Verify.write1Job i (inv.sound1.slots _ room)
  rw [Verify.body, if_pos one]
  constructor
  · rw [queue1, cmts]
    exact linked.commit1.push asks
  · rw [queue0, cmts]
    exact linked.commit0
  · exact used.trans linked.used

theorem linkedZero (zero : o.chall2 i ≠ 1)
    (inv : Verify.Inv sig.salt p.t (schemeBytes p o sig sPrime) o.chall2 (fun k => (resp0At p sig k).vGBar)
      (resp1At p sig) (Cross.hash p shake) cmt1 cmt0 i s) (room : s.queue0.count < 2) (linked : Linked a s)
    {next : Sve2.VerifyQueues p} (queue1 : next.queue1 = a.queue1)
    (queue0 : next.queue0 = a.queue0.push ⟨i, (sPrime i).toList ++ (resp0At p sig a.usedRsps).vGBar.toList ++
      sig.salt.toList, roundHashDsc p i⟩)
    (cmts : next.cmts = { a.cmts with cmt1 := Function.update a.cmts.cmt1 i (resp1At p sig a.usedRsps) })
    (used : next.usedRsps = a.usedRsps + 1) :
    Linked next
      (Verify.body p.t (schemeBytes p o sig sPrime) o.chall2 (fun k => (resp0At p sig k).vGBar) (resp1At p sig) i s) := by
  have asks := @Verify.write0Job _ _ _ _ sig.salt p.t (schemeBytes p o sig sPrime) o.chall2
    (fun k => (resp0At p sig k).vGBar) i (s.queue0.slot s.queue0.count) (inv.sound0.slots _ room)
  rw [← inv.used] at asks
  rw [Verify.body, if_neg zero]
  constructor
  · rw [queue1, cmts, linked.used]
    exact linked.commit1.write i _
  · rw [queue0, cmts]
    refine linked.commit0.push (asks.trans ?_)
    rw [ownJob0, Verify.answered, ← inv.used, linked.used]
    rfl
  · rw [used, linked.used]

end Simulation

def schemeAt (p : Parameters) (shake : Shake) (o : Opening p) (sig : CrossSig p) (length : VectorLength)
    (unwritten : Sve2.Unwritten p) (i : Nat) : Sve2.VerifyQueues p :=
  let empty : Batch.Queue HashJob := ⟨0, fun _ => ⟨0, [], 0⟩⟩
  Loop.upTo i (fun i s => Sve2.verifyFlush p shake i (Sve2.verifyRoundBody p shake o sig length unwritten i s))
    ⟨⟨unwritten.y, Commitments.zero p, 0, true, true⟩, empty, empty⟩

def bytesAt (p : Parameters) (shake : Shake) (o : Opening p) (sig : CrossSig p)
    (sPrime : Nat → Block p.denselyPackedFpSynSize) (slots1 slots0 : Nat → Verify.Slot) (i : Nat) :
    Verify.State (Block p.hashLength) :=
  Loop.upTo i
    (Verify.round p.t (schemeBytes p o sig sPrime) o.chall2 (fun k => (resp0At p sig k).vGBar) (resp1At p sig)
      (Cross.hash p shake) p.saltLength)
    (Verify.start sig.salt p.denselyPackedFpSynSize p.denselyPackedFzRsdpGVecSize p.seedLength slots1 slots0
      (Commitments.zero p).cmt1 (Commitments.zero p).cmt0)

theorem schemeAtSucc (i : Nat) : schemeAt p shake o sig length unwritten (i + 1) = Sve2.verifyFlush p shake i
    (Sve2.verifyRoundBody p shake o sig length unwritten i (schemeAt p shake o sig length unwritten i)) := by
  rw [schemeAt, Loop.upToSucc]
  rfl

theorem verifierCommits (slots1 slots0 : Nat → Verify.Slot) :
    ∃ sPrime : Nat → Block p.denselyPackedFpSynSize,
      let s := Verify.run sig.salt p.t (schemeBytes p o sig sPrime) o.chall2 (fun k => (resp0At p sig k).vGBar)
        (resp1At p sig) (Cross.hash p shake) slots1 slots0 (Commitments.zero p).cmt1 (Commitments.zero p).cmt0
      let cmts := (Sve2.verifyRounds p shake o sig length unwritten).cmts
      s.cmt0.array = cmts.cmt0 ∧ s.cmt1.array = cmts.cmt1 := by
  have packed : ∀ i, ∃ sPrime : Block p.denselyPackedFpSynSize, o.chall2 i ≠ 1 →
      let s := schemeAt p shake o sig length unwritten i
      let next := Sve2.verifyRoundBody p shake o sig length unwritten i s
      next.queue1 = s.queue1 ∧ next.queue0 = s.queue0.push ⟨i, sPrime.toList ++
        (resp0At p sig s.usedRsps).vGBar.toList ++ sig.salt.toList, roundHashDsc p i⟩ ∧
      next.cmts = { s.cmts with cmt1 := Function.update s.cmts.cmt1 i (resp1At p sig s.usedRsps) } ∧
      next.usedRsps = s.usedRsps + 1 := fun i => by
    by_cases one : o.chall2 i = 1
    · exact ⟨Block.zero _, fun zero => absurd one zero⟩
    · obtain ⟨sPrime, here⟩ := roundZero o sig length unwritten one (schemeAt p shake o sig length unwritten i)
      exact ⟨sPrime, fun _ => here⟩
  choose sPrime packed using packed
  refine ⟨sPrime, ?_⟩
  intro s cmts
  have run : ∀ i, Verify.Inv sig.salt p.t (schemeBytes p o sig sPrime) o.chall2 (fun k => (resp0At p sig k).vGBar)
        (resp1At p sig) (Cross.hash p shake) (Commitments.zero p).cmt1 (Commitments.zero p).cmt0 i
        (bytesAt p shake o sig sPrime slots1 slots0 i) ∧
      Verify.Drained p.t i (bytesAt p shake o sig sPrime slots1 slots0 i) ∧
      Linked (schemeAt p shake o sig length unwritten i) (bytesAt p shake o sig sPrime slots1 slots0 i) := by
    intro i
    induction i with
    | zero =>
      have empty : ∀ length slots,
          Mirrors p length ⟨0, fun _ => ⟨0, [], 0⟩⟩ (Commitments.zero p).cmt1 ⟨0, slots, []⟩ ⟨(Commitments.zero p).cmt1, []⟩ :=
        fun _ _ => ⟨rfl, fun k below => absurd below (Nat.not_lt_zero k), rfl⟩
      exact ⟨Verify.startInv slots1 slots0 _ _, ⟨Nat.zero_lt_two, Nat.zero_lt_two, fun _ => ⟨rfl, rfl⟩⟩,
        empty _ _, empty _ _, rfl⟩
    | succ i ih =>
      obtain ⟨inv, drained, linked⟩ := ih
      obtain ⟨queued, fits1, fits0⟩ := Verify.bodyInv inv drained.room1 drained.room0
      obtain ⟨next, room1, room0⟩ := Verify.flushInv queued fits1 fits0
      rw [bytesAt, Loop.upToSucc, ← bytesAt, schemeAtSucc]
      refine ⟨next, ⟨room1, room0, fun last => Verify.flushLast (by omega) _⟩, ?_⟩
      by_cases one : o.chall2 i = 1
      · have body := linkedOne o sig length unwritten sPrime one inv drained.room1 linked
        exact ⟨body.commit1.flush fits1 _, body.commit0.flush fits0 _, body.used⟩
      · obtain ⟨queue1, queue0, cmts, used⟩ := packed i one
        have body := linkedZero o sig sPrime one inv drained.room0 linked queue1 queue0 cmts used
        exact ⟨body.commit1.flush fits1 _, body.commit0.flush fits0 _, body.used⟩
  have linked := (run p.t).2.2
  exact ⟨linked.commit0.array, linked.commit1.array⟩

end Scheme
end Armor.Cross.Queues
