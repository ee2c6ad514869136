import Armor.Cross.Api
import Armor.Lib.Script
import Armor.Results.ComputationalCampaign

/-! The programs that `mem_tests` profiles, `test_kem_mem.c` and `test_sig_mem.c`. The three operations of an
algorithm are processes of their own, which pass keys, messages and signatures on in the files of `tmp_store.c`. -/
namespace Armor.Results.MemoryPrograms
open Script (Exit)

abbrev Store := Option (String → Option Bytes)

def Store.content (store : Store) (path : String) : Option Bytes := store.bind fun files => files path

def storePath (fname mname : String) : String := "tmp" ++ "/oqs-temp-file-" ++ mname ++ fname

def oqsFstoreInit (store : Store) : Store := some (store.getD fun _ => none)

def oqsFstore (fname mname : String) (data : Bytes) (store : Store) : Except (Exit Store) Store :=
  match store with
  | none => .error ⟨1, store⟩
  | some files => .ok (some (Function.update files (storePath fname mname) (some data)))

/-- What was received at `data`, and how much. A file that gives nothing is an error. -/
def oqsFload (fname mname : String) (data : Mem) (len : Nat) (store : Store) : Except (Exit Store) (Mem × Nat) :=
  match Store.content store (storePath fname mname) with
  | none => .error ⟨1, store⟩
  | some content =>
    if content.take len = [] then .error ⟨1, store⟩
    else .ok (data.write 0 (content.take len), (content.take len).length)

structure Buffers where
  pk : Mem
  sk : Mem
  ct : Mem
  se : Mem

/-- What differs between the two programs, for one algorithm and with what a process draws. `buffers` is what
`OQS_MEM_malloc` returns, unless it fails. -/
structure Program where
  memory : Bool
  buffers : Buffers
  lengthPublicKey : Nat
  lengthSecretKey : Nat
  lengthCt : Nat
  lengthSe : Nat
  keypair : Mem → Mem → Cross.Keypair
  make : Buffers → Int × Bytes × Bytes
  check : Buffers → Nat → Bool

section Operations

variable (prog : Program) (mname : String) (store : Store)

def keygenOp : Except (Exit Store) Store := do
  if prog.memory = false then .error ⟨1, store⟩
  else
    let keys := prog.keypair prog.buffers.pk prog.buffers.sk
    if keys.status ≠ 0 then .error ⟨1, store⟩
    else
      let store ← oqsFstore "pk" mname (keys.pk.bytes 0 prog.lengthPublicKey) store
      oqsFstore "sk" mname (keys.sk.bytes 0 prog.lengthSecretKey) store

def makeOp : Except (Exit Store) Store := do
  if prog.memory = false then .error ⟨1, store⟩
  else
    let (pk, _) ← oqsFload "pk" mname prog.buffers.pk prog.lengthPublicKey store
    let (sk, _) ← oqsFload "sk" mname prog.buffers.sk prog.lengthSecretKey store
    let (rc, ct, se) := prog.make { prog.buffers with pk := pk, sk := sk }
    if rc ≠ 0 then .error ⟨1, store⟩
    else
      let store ← oqsFstore "ct" mname ct store
      oqsFstore "se" mname se store

def checkOp : Except (Exit Store) Store := do
  if prog.memory = false then .error ⟨1, store⟩
  else
    let (pk, _) ← oqsFload "pk" mname prog.buffers.pk prog.lengthPublicKey store
    let (sk, _) ← oqsFload "sk" mname prog.buffers.sk prog.lengthSecretKey store
    let (ct, _) ← oqsFload "ct" mname prog.buffers.ct prog.lengthCt store
    let (se, received) ← oqsFload "se" mname prog.buffers.se prog.lengthSe store
    if prog.check ⟨pk, sk, ct, se⟩ received then .ok store else .error ⟨1, store⟩

def testCorrectness (op : Nat) : Except (Exit Store) Store :=
  match op with
  | 0 => keygenOp prog mname store
  | 1 => makeOp prog mname store
  | 2 => checkOp prog mname store
  | _ => .error ⟨1, store⟩

end Operations

def main (prog : Option Program) (mname : String) (op : Nat) (store : Store) : Exit Store :=
  match prog with
  | none => ⟨1, store⟩
  | some prog => Script.finish (testCorrectness prog mname (oqsFstoreInit store) op)

structure OqsSig where
  lengthPublicKey : Nat
  lengthSecretKey : Nat
  lengthSignature : Nat
  keypair : Mem → Mem → Cross.Keypair
  sign : Mem → Mem → UInt64 → Mem → Cross.SignedMessage
  verify : Mem → UInt64 → Mem → UInt64 → Mem → Int

def messageLen : Nat := 100

structure SigProcess where
  sig : OqsSig
  memory : Bool
  buffers : Buffers
  random : Armor.Block messageLen

def sigProgram (proc : SigProcess) : Program where
  memory := proc.memory
  buffers := proc.buffers
  lengthPublicKey := proc.sig.lengthPublicKey
  lengthSecretKey := proc.sig.lengthSecretKey
  lengthCt := messageLen
  lengthSe := proc.sig.lengthSignature
  keypair := proc.sig.keypair
  make b :=
    let message := b.ct.write 0 proc.random.toList
    let signed := proc.sig.sign b.se message (UInt64.ofNat messageLen) b.sk
    (signed.status, message.bytes 0 messageLen, signed.sm.bytes 0 signed.smlen.toNat)
  check b received := proc.sig.verify b.ct (UInt64.ofNat messageLen) b.se (UInt64.ofNat received) b.pk == 0

structure OqsKem where
  lengthPublicKey : Nat
  lengthSecretKey : Nat
  lengthCiphertext : Nat
  lengthSharedSecret : Nat
  keypair : Mem → Mem → Cross.Keypair
  encaps : Mem → Mem → Mem → Int × Mem × Mem
  decaps : Mem → Mem → Mem → Int × Mem

structure KemProcess where
  kem : OqsKem
  memory : Bool
  buffers : Buffers
  sharedSecretD : Mem

def kemProgram (proc : KemProcess) : Program where
  memory := proc.memory
  buffers := proc.buffers
  lengthPublicKey := proc.kem.lengthPublicKey
  lengthSecretKey := proc.kem.lengthSecretKey
  lengthCt := proc.kem.lengthCiphertext
  lengthSe := proc.kem.lengthSharedSecret
  keypair := proc.kem.keypair
  make b :=
    let (rc, ciphertext, sharedSecretE) := proc.kem.encaps b.ct b.se b.pk
    (rc, ciphertext.bytes 0 proc.kem.lengthCiphertext, sharedSecretE.bytes 0 proc.kem.lengthSharedSecret)
  check b _ :=
    let (rc, decapsulated) := proc.kem.decaps proc.sharedSecretD b.ct b.sk
    rc == 0 && b.se.bytes 0 proc.kem.lengthSharedSecret == decapsulated.bytes 0 proc.kem.lengthSharedSecret

structure CrossProcess (p : Cross.Parameters) where
  build : Cross.Build
  seedSk : Armor.Block p.keypairSeedLength
  draws : Cross.SignDraws p
  arrays : Cross.VerifyArrays p

def oqsSigCross (category : Cross.Category) (shake : Cross.Shake) (proc : CrossProcess category.parameters) : OqsSig where
  lengthPublicKey := category.lengthPublicKey
  lengthSecretKey := category.lengthSecretKey
  lengthSignature := category.lengthSignature
  keypair := Cross.oqsSigKeypair category.parameters shake proc.build proc.seedSk
  sign := Cross.oqsSigSign category.parameters shake proc.build proc.draws
  verify := Cross.oqsSigVerify category.parameters shake proc.build proc.arrays

/-- The processes of the listed algorithms, by run, name and operation, and whether the directory that the
script removes, `$test_scripts_path/tmp/`, is the one that they store in. -/
structure Suite where
  kems : Nat → String → Nat → Option KemProcess
  sigs : Nat → String → Nat → Option SigProcess
  here : Bool

def Suite.program (suite : Suite) : AlgKind → Nat → String → Nat → Option Program
  | .kem, run, alg, op => (suite.kems run alg op).map kemProgram
  | .sig, run, alg, op => (suite.sigs run alg op).map sigProgram

structure Session where
  store : Store
  exits : List (MemTest × Nat)

def Adds (tests : List MemTest) (holds : MemTest × Nat → Prop) (script : Session → Session) : Prop :=
  ∀ s, ∃ added, (script s).exits = s.exits ++ added ∧ added.map Prod.fst = tests ∧ ∀ e ∈ added, holds e

variable (suite : Suite)

def Suite.removeTmp (s : Session) : Session := if suite.here then { s with store := none } else s

def Suite.operation (kind : AlgKind) (run : Nat) (alg : String) (s : Session) (op : Nat) : Session :=
  let ended := main (suite.program kind run alg op) alg op s.store
  ⟨ended.left, s.exits ++ [(⟨kind, alg, op, run⟩, ended.status)]⟩

def Suite.algorithm (kind : AlgKind) (run : Nat) (s : Session) (alg : String) : Session :=
  suite.removeTmp ((List.range 3).foldl (suite.operation kind run alg) s)

def Suite.run (kemAlgs sigAlgs : List String) (s : Session) (run : Nat) : Session :=
  suite.removeTmp (sigAlgs.foldl (suite.algorithm .sig run) (kemAlgs.foldl (suite.algorithm .kem run) s))

def Suite.memTests (numRuns : Nat) (kemAlgs sigAlgs : List String) (s : Session) : Session :=
  suite.removeTmp ((runs numRuns).foldl (suite.run kemAlgs sigAlgs) (suite.removeTmp s))

section Files

variable {fname fname' mname : String} {data : Bytes} {store : Store} {files : String → Option Bytes}

theorem storePathInj (same : storePath fname mname = storePath fname' mname) : fname = fname' := by
  have chars := congrArg String.toList same
  simp only [storePath, String.toList_append] at chars
  exact String.toList_injective (List.append_cancel_left chars)

theorem initContent (store : Store) (path : String) : (oqsFstoreInit store).content path = store.content path := by
  cases store <;> rfl

theorem storedOwn : Store.content (some (Function.update files (storePath fname mname) (some data)))
    (storePath fname mname) = some data :=
  Function.update_self _ _ _

theorem storedOther (other : fname' ≠ fname) :
    Store.content (some (Function.update files (storePath fname mname) (some data))) (storePath fname' mname) =
      Store.content (some files) (storePath fname' mname) :=
  Function.update_of_ne (fun same => other (storePathInj same)) _ _

def Fits (file : Bytes) (len : Nat) : Prop := file ≠ [] ∧ file.length ≤ len

theorem loadedWhole {len : Nat} (held : store.content (storePath fname mname) = some data) (fits : Fits data len)
    (buffer : Mem) : oqsFload fname mname buffer len store = .ok (buffer.write 0 data, data.length) := by
  have whole : data.take len = data := List.take_of_length_le fits.2
  rw [oqsFload, held]
  dsimp only
  rw [whole]
  exact if_neg fits.1

end Files

section HandedOn

variable (keygen make check : Program)

def pkFile : Bytes := (keygen.keypair keygen.buffers.pk keygen.buffers.sk).pk.bytes 0 keygen.lengthPublicKey
def skFile : Bytes := (keygen.keypair keygen.buffers.pk keygen.buffers.sk).sk.bytes 0 keygen.lengthSecretKey

def made : Int × Bytes × Bytes :=
  make.make { make.buffers with pk := make.buffers.pk.write 0 (pkFile keygen), sk := make.buffers.sk.write 0 (skFile keygen) }

def verdict : Bool :=
  check.check ⟨check.buffers.pk.write 0 (pkFile keygen), check.buffers.sk.write 0 (skFile keygen),
    check.buffers.ct.write 0 (made keygen make).2.1, check.buffers.se.write 0 (made keygen make).2.2⟩ (made keygen make).2.2.length

theorem verdictOf {keygen make check : Program} {rc : Int} {ct se : Bytes} (makes : made keygen make = (rc, ct, se)) :
    verdict keygen make check = check.check ⟨check.buffers.pk.write 0 (pkFile keygen), check.buffers.sk.write 0 (skFile keygen),
      check.buffers.ct.write 0 ct, check.buffers.se.write 0 se⟩ se.length := by
  rw [verdict, makes]

structure Passing : Prop where
  memory : keygen.memory = true ∧ make.memory = true ∧ check.memory = true
  keys : (keygen.keypair keygen.buffers.pk keygen.buffers.sk).status = 0
  makes : (made keygen make).1 = 0
  pkMake : Fits (pkFile keygen) make.lengthPublicKey
  skMake : Fits (skFile keygen) make.lengthSecretKey
  pkCheck : Fits (pkFile keygen) check.lengthPublicKey
  skCheck : Fits (skFile keygen) check.lengthSecretKey
  ctCheck : Fits (made keygen make).2.1 check.lengthCt
  seCheck : Fits (made keygen make).2.2 check.lengthSe

variable {keygen make check} {mname : String} {store : Store}

structure HoldsKeys (keygen : Program) (mname : String) (store : Store) : Prop where
  pk : store.content (storePath "pk" mname) = some (pkFile keygen)
  sk : store.content (storePath "sk" mname) = some (skFile keygen)

theorem HoldsKeys.init (held : HoldsKeys keygen mname store) : HoldsKeys keygen mname (oqsFstoreInit store) :=
  ⟨(initContent store _).trans held.pk, (initContent store _).trans held.sk⟩

theorem keygenPassed (memory : keygen.memory = true) (keys : (keygen.keypair keygen.buffers.pk keygen.buffers.sk).status = 0)
    (store : Store) : ∃ store', keygenOp keygen mname (oqsFstoreInit store) = .ok store' ∧ HoldsKeys keygen mname store' := by
  refine ⟨some (Function.update (Function.update (store.getD fun _ => none) (storePath "pk" mname) (some (pkFile keygen)))
    (storePath "sk" mname) (some (skFile keygen))), ?_, (storedOther (by decide)).trans storedOwn, storedOwn⟩
  rw [keygenOp, if_neg (ne_false_of_eq_true memory)]
  exact if_neg (not_not.mpr keys)

theorem makePassed (passing : Passing keygen make check) (held : HoldsKeys keygen mname store) :
    ∃ store', makeOp make mname store = .ok store' ∧ HoldsKeys keygen mname store' ∧
      store'.content (storePath "ct" mname) = some (made keygen make).2.1 ∧
      store'.content (storePath "se" mname) = some (made keygen make).2.2 := by
  obtain ⟨files, rfl⟩ : ∃ files, store = some files := by
    cases store with
    | none => exact nomatch held.pk
    | some files => exact ⟨files, rfl⟩
  refine ⟨some (Function.update (Function.update files (storePath "ct" mname) (some (made keygen make).2.1)) (storePath "se" mname)
    (some (made keygen make).2.2)), ?_, ⟨?_, ?_⟩, ?_, storedOwn⟩
  · rw [makeOp, if_neg (ne_false_of_eq_true passing.memory.2.1), loadedWhole held.pk passing.pkMake,
      loadedWhole held.sk passing.skMake]
    exact if_neg (not_not.mpr passing.makes)
  · exact (storedOther (by decide)).trans ((storedOther (by decide)).trans held.pk)
  · exact (storedOther (by decide)).trans ((storedOther (by decide)).trans held.sk)
  · exact (storedOther (by decide)).trans storedOwn

theorem checkEnds (passing : Passing keygen make check) (held : HoldsKeys keygen mname store)
    (ct : store.content (storePath "ct" mname) = some (made keygen make).2.1)
    (se : store.content (storePath "se" mname) = some (made keygen make).2.2) :
    checkOp check mname store = if verdict keygen make check then .ok store else .error ⟨1, store⟩ := by
  rw [checkOp, if_neg (ne_false_of_eq_true passing.memory.2.2), loadedWhole held.pk passing.pkCheck,
    loadedWhole held.sk passing.skCheck, loadedWhole ct passing.ctCheck, loadedWhole se passing.seCheck]
  rfl

end HandedOn

section Exits

variable {holds : MemTest × Nat → Prop}

theorem addsNothing {script : Session → Session} (quiet : ∀ s, (script s).exits = s.exits) : Adds [] holds script := fun s =>
  ⟨[], (quiet s).trans (List.append_nil _).symm, rfl, fun _ member => absurd member List.not_mem_nil⟩

theorem addsThen {first second : List MemTest} {script next : Session → Session} (before : Adds first holds script)
    (after : Adds second holds next) : Adds (first ++ second) holds fun s => next (script s) := by
  intro s
  obtain ⟨added, exits, tests, each⟩ := before s
  obtain ⟨added', exits', tests', each'⟩ := after (script s)
  refine ⟨added ++ added', ?_, ?_, fun e member => (List.mem_append.mp member).elim (each e) (each' e)⟩
  · rw [exits', exits, List.append_assoc]
  · rw [List.map_append, tests, tests']

theorem addsFold {α : Type} {script : Session → α → Session} {tests : α → List MemTest}
    (each : ∀ a, Adds (tests a) holds fun s => script s a) (items : List α) :
    Adds (items.flatMap tests) holds fun s => items.foldl script s := by
  induction items with
  | nil => exact addsNothing fun _ => rfl
  | cons a items ih => exact addsThen (each a) ih

end Exits

section Suites

variable {suite : Suite} {kind : AlgKind} {run : Nat} {alg : String}

def HandedOn (suite : Suite) (e : MemTest × Nat) : Prop :=
  ∀ keygen make check, suite.program e.1.kind e.1.run e.1.alg 0 = some keygen →
    suite.program e.1.kind e.1.run e.1.alg 1 = some make → suite.program e.1.kind e.1.run e.1.alg 2 = some check →
    Passing keygen make check → e.2 = if e.1.operation < 2 ∨ verdict keygen make check then 0 else 1

def testsOf (kind : AlgKind) (run : Nat) (alg : String) : List MemTest := (List.range 3).map fun op => ⟨kind, alg, op, run⟩

theorem operationsExits {keygen make check : Program} (zero : suite.program kind run alg 0 = some keygen)
    (one : suite.program kind run alg 1 = some make) (two : suite.program kind run alg 2 = some check)
    (passing : Passing keygen make check) (s : Session) :
    ((List.range 3).foldl (suite.operation kind run alg) s).exits =
      s.exits ++ (testsOf kind run alg).zip [0, 0, if verdict keygen make check then 0 else 1] := by
  obtain ⟨first, keygenRuns, held⟩ := @keygenPassed keygen alg passing.memory.1 passing.keys s.store
  obtain ⟨second, makeRuns, kept, ct, se⟩ := makePassed passing held.init
  have checkRuns := checkEnds passing kept.init ((initContent second _).trans ct) ((initContent second _).trans se)
  have ended0 : main (some keygen) alg 0 s.store = ⟨0, first⟩ := congrArg Script.finish keygenRuns
  have ended1 : main (some make) alg 1 first = ⟨0, second⟩ := congrArg Script.finish makeRuns
  have ended2 : (main (some check) alg 2 second).status = if verdict keygen make check then 0 else 1 := by
    refine (congrArg (fun r => (Script.finish r).status) checkRuns).trans ?_
    split <;> rfl
  have operations : (List.range 3).foldl (suite.operation kind run alg) s =
      suite.operation kind run alg (suite.operation kind run alg (suite.operation kind run alg s 0) 1) 2 := rfl
  rw [operations]
  unfold Suite.operation
  dsimp only
  rw [zero, one, two, ended0]
  dsimp only
  rw [ended1]
  dsimp only
  rw [ended2, List.append_assoc, List.append_assoc]
  rfl

theorem removeExits (suite : Suite) (s : Session) : (suite.removeTmp s).exits = s.exits := by
  unfold Suite.removeTmp
  split <;> rfl

theorem algorithmAdds (suite : Suite) (kind : AlgKind) (run : Nat) (alg : String) :
    Adds (testsOf kind run alg) (HandedOn suite) fun s => suite.algorithm kind run s alg := by
  intro s
  let operation := suite.operation kind run alg
  let status := fun (s : Session) op => (main (suite.program kind run alg op) alg op s.store).status
  let statuses := [status s 0, status (operation s 0) 1, status (operation (operation s 0) 1) 2]
  have operated : ((List.range 3).foldl operation s).exits = s.exits ++ (testsOf kind run alg).zip statuses :=
    (congrArg (· ++ [_]) (List.append_assoc s.exits [_] [_])).trans (List.append_assoc s.exits [_, _] [_])
  have known : ∀ keygen make check, suite.program kind run alg 0 = some keygen → suite.program kind run alg 1 = some make →
      suite.program kind run alg 2 = some check → Passing keygen make check →
      statuses = [0, 0, if verdict keygen make check then 0 else 1] := by
    intro keygen make check zero one two passing
    have same := List.append_cancel_left (operated.symm.trans (operationsExits zero one two passing s))
    exact congrArg (List.map Prod.snd) same
  refine ⟨(testsOf kind run alg).zip statuses, (removeExits suite _).trans operated, rfl, fun e member => ?_⟩
  have cases_ : e = (⟨kind, alg, 0, run⟩, status s 0) ∨ e = (⟨kind, alg, 1, run⟩, status (operation s 0) 1) ∨
      e = (⟨kind, alg, 2, run⟩, status (operation (operation s 0) 1) 2) := by
    rcases List.mem_cons.mp member with first | member
    · exact .inl first
    · exact .inr (List.mem_pair.mp member)
  rcases cases_ with rfl | rfl | rfl
  · intro keygen make check zero one two passing
    exact (List.cons.inj (known keygen make check zero one two passing)).1
  · intro keygen make check zero one two passing
    exact (List.cons.inj (List.cons.inj (known keygen make check zero one two passing)).2).1
  · intro keygen make check zero one two passing
    have last := (List.cons.inj (List.cons.inj (List.cons.inj (known keygen make check zero one two passing)).2).2).1
    rw [last]
    simp

theorem measurementsByRun (numRuns : Nat) (kemAlgs sigAlgs : List String) : memMeasurements numRuns kemAlgs sigAlgs =
    (runs numRuns).flatMap fun run => kemAlgs.flatMap (testsOf .kem run) ++ sigAlgs.flatMap (testsOf .sig run) := by
  rw [memMeasurements, halves, List.flatMap_assoc]
  refine List.flatMap_congr fun run _ => ?_
  simp only [algOperations, AlgKind.algs, List.map_flatMap, List.map_map, List.flatMap_cons, List.flatMap_nil, List.append_nil]
  rfl

theorem memTestsAdds (suite : Suite) (numRuns : Nat) (kemAlgs sigAlgs : List String) :
    Adds (memMeasurements numRuns kemAlgs sigAlgs) (HandedOn suite) (suite.memTests numRuns kemAlgs sigAlgs) := by
  have quiet : Adds [] (HandedOn suite) suite.removeTmp := addsNothing (removeExits suite)
  have each : ∀ run, Adds ((kemAlgs.flatMap (testsOf .kem run) ++ sigAlgs.flatMap (testsOf .sig run)) ++ []) (HandedOn suite)
      fun s => suite.run kemAlgs sigAlgs s run := fun run =>
    addsThen (addsThen (addsFold (algorithmAdds suite .kem run) kemAlgs) (addsFold (algorithmAdds suite .sig run) sigAlgs)) quiet
  have whole := addsThen (addsThen quiet (addsFold each (runs numRuns))) quiet
  simp only [List.append_nil, List.nil_append] at whole
  rw [measurementsByRun]
  exact whole

end Suites

theorem fitsBytes {m : Mem} {off len : Nat} (positive : 0 < len) : Fits (m.bytes off len) len := by
  have length := Mem.bytesLength m off len
  exact ⟨List.ne_nil_of_length_pos (by omega), Nat.le_of_eq length⟩

theorem loadPassed {α : Type} (image : Image α) (m buffer : Mem) {size : Nat} (same : image.size = size) :
    image.load (buffer.write 0 (m.bytes 0 size)) = image.load m := by
  subst same
  refine image.loadCongr ?_
  have wrote := buffer.writeBytes 0 (m.bytes 0 image.size)
  rwa [Mem.bytesLength] at wrote

theorem crossLengths (category : Cross.Category) : 0 < category.lengthPublicKey ∧ 0 < category.lengthSecretKey ∧
    0 < category.lengthSignature ∧ (UInt64.ofNat category.lengthSignature).toNat = category.lengthSignature := by
  cases category <;> exact ⟨by decide, by decide, by decide, rfl⟩

theorem messageSome : 0 < messageLen := by decide

theorem messageWhole : (UInt64.ofNat messageLen).toNat = messageLen := by decide

section CrossPrograms

variable (category : Cross.Category) (shake : Cross.Shake) (proc : Nat → CrossProcess category.parameters)
  (buffers : Nat → Buffers) (random : Nat → Armor.Block messageLen)

def crossSigProcess (op : Nat) : SigProcess := ⟨oqsSigCross category shake (proc op), true, buffers op, random op⟩

def crossProgram (op : Nat) : Program := sigProgram (crossSigProcess category shake proc buffers random op)

def crossKeys : Cross.Keypair :=
  Cross.cryptoSignKeypair category.parameters shake (proc 0).build (proc 0).seedSk (buffers 0).pk (buffers 0).sk

def crossMessage : Mem := (buffers 1).ct.write 0 (random 1).toList

def crossSigned : Cross.SignedMessage :=
  Cross.cryptoSignSignature category.parameters shake (proc 1).build (proc 1).draws (buffers 1).se (crossMessage buffers random)
    (UInt64.ofNat messageLen) (crossKeys category shake proc buffers).sk

theorem crossPk : pkFile (crossProgram category shake proc buffers random 0) =
    (crossKeys category shake proc buffers).pk.bytes 0 category.lengthPublicKey := rfl

theorem crossSk : skFile (crossProgram category shake proc buffers random 0) =
    (crossKeys category shake proc buffers).sk.bytes 0 category.lengthSecretKey := rfl

theorem crossMade : made (crossProgram category shake proc buffers random 0) (crossProgram category shake proc buffers random 1) =
    (0, (crossMessage buffers random).bytes 0 messageLen,
      (crossSigned category shake proc buffers random).sm.bytes 0 category.lengthSignature) := by
  have signs : ∀ sk sk' : Mem, (Cross.skT category.parameters).load sk = (Cross.skT category.parameters).load sk' →
      ∀ sig m mlen, Cross.cryptoSignSignature category.parameters shake (proc 1).build (proc 1).draws sig m mlen sk =
        Cross.cryptoSignSignature category.parameters shake (proc 1).build (proc 1).draws sig m mlen sk' := by
    intro sk sk' same sig m mlen
    unfold Cross.cryptoSignSignature Cross.signPointers
    rw [same]
  have key := loadPassed (Cross.skT category.parameters) (crossKeys category shake proc buffers).sk (buffers 1).sk
    (Cross.categorySizes category).2.1
  have signed := signs _ _ key (buffers 1).se (crossMessage buffers random) (UInt64.ofNat messageLen)
  have length : (crossSigned category shake proc buffers random).smlen.toNat = category.lengthSignature := by
    have size : (crossSigned category shake proc buffers random).smlen =
      UInt64.ofNat (Cross.crossSigT category.parameters).size := rfl
    rw [size, (Cross.categorySizes category).2.2, (crossLengths category).2.2.2]
  have outcome : made (crossProgram category shake proc buffers random 0) (crossProgram category shake proc buffers random 1) =
      ((crossSigned category shake proc buffers random).status, (crossMessage buffers random).bytes 0 messageLen,
        (crossSigned category shake proc buffers random).sm.bytes 0 (crossSigned category shake proc buffers random).smlen.toNat) :=
    congrArg (fun signed : Cross.SignedMessage =>
      (signed.status, (crossMessage buffers random).bytes 0 messageLen, signed.sm.bytes 0 signed.smlen.toNat)) signed
  rw [outcome, length]
  rfl

theorem crossPassing : Passing (crossProgram category shake proc buffers random 0)
    (crossProgram category shake proc buffers random 1)
    (crossProgram category shake proc buffers random 2) := by
  obtain ⟨pk, sk, signature, -⟩ := crossLengths category
  have pkFits : Fits (pkFile (crossProgram category shake proc buffers random 0)) category.lengthPublicKey := by
    rw [crossPk]
    exact fitsBytes pk
  have skFits : Fits (skFile (crossProgram category shake proc buffers random 0)) category.lengthSecretKey := by
    rw [crossSk]
    exact fitsBytes sk
  have makes := crossMade category shake proc buffers random
  have ct : (made (crossProgram category shake proc buffers random 0) (crossProgram category shake proc buffers random 1)).2.1 =
      (crossMessage buffers random).bytes 0 messageLen := by rw [makes]
  have se : (made (crossProgram category shake proc buffers random 0) (crossProgram category shake proc buffers random 1)).2.2 =
      (crossSigned category shake proc buffers random).sm.bytes 0 category.lengthSignature := by rw [makes]
  have ctFits := @fitsBytes (crossMessage buffers random) 0 messageLen messageSome
  have seFits := @fitsBytes (crossSigned category shake proc buffers random).sm 0 category.lengthSignature signature
  exact {
    memory := ⟨rfl, rfl, rfl⟩
    keys := rfl
    makes := congrArg Prod.fst makes
    pkMake := pkFits
    skMake := skFits
    pkCheck := pkFits
    skCheck := skFits
    ctCheck := by
      rw [ct]
      exact ctFits
    seCheck := by
      rw [se]
      exact seFits }

theorem crossCheck (b : Buffers) (received : Nat) : (crossProgram category shake proc buffers random 2).check b received =
    (Cross.verifyPointers category.parameters shake (proc 2).build (proc 2).arrays b.pk b.ct
      (UInt64.ofNat messageLen) b.se == 0) := rfl

theorem crossBuffers : (crossProgram category shake proc buffers random 2).buffers = buffers 2 := rfl

theorem crossReceived : Cross.verifyPointers category.parameters shake (proc 2).build (proc 2).arrays
    ((buffers 2).pk.write 0 ((crossKeys category shake proc buffers).pk.bytes 0 category.lengthPublicKey))
    ((buffers 2).ct.write 0 ((crossMessage buffers random).bytes 0 messageLen)) (UInt64.ofNat messageLen)
    ((buffers 2).se.write 0 ((crossSigned category shake proc buffers random).sm.bytes 0 category.lengthSignature)) = 0 := by
  have own := Cross.verifyStatus.mp (@Cross.ownVerified category.parameters shake (proc 0).build (proc 1).build (proc 2).build
    (proc 0).seedSk (proc 1).draws (proc 2).arrays (buffers 0).pk (buffers 0).sk (crossMessage buffers random)
    (UInt64.ofNat messageLen) (buffers 1).se)
  have wrote := (buffers 2).ct.writeBytes 0 ((crossMessage buffers random).bytes 0 messageLen)
  rw [Mem.bytesLength] at wrote
  rw [messageWhole] at own
  rw [Cross.verifyStatus, messageWhole, wrote, loadPassed (Cross.pkT category.parameters) _ _ (Cross.categorySizes category).1,
    loadPassed (Cross.crossSigT category.parameters) _ _ (Cross.categorySizes category).2.2]
  exact own

theorem crossVerdict : verdict (crossProgram category shake proc buffers random 0)
    (crossProgram category shake proc buffers random 1)
    (crossProgram category shake proc buffers random 2) = true := by
  rw [verdictOf (crossMade category shake proc buffers random), crossCheck, crossPk, crossBuffers]
  dsimp only
  rw [crossReceived]
  rfl

end CrossPrograms

theorem crossMemTests (category : Cross.Category) (shake : Cross.Shake) (suite : Suite) (name : String)
    (proc : Nat → Nat → CrossProcess category.parameters) (buffers : Nat → Nat → Buffers)
    (random : Nat → Nat → Armor.Block messageLen)
    (listed : ∀ run op, suite.sigs run name op = some (crossSigProcess category shake (proc run) (buffers run) (random run) op))
    (numRuns : Nat) (kemAlgs sigAlgs : List String) (s : Session) :
    ∃ added, (suite.memTests numRuns kemAlgs sigAlgs s).exits = s.exits ++ added ∧
      added.map Prod.fst = memMeasurements numRuns kemAlgs sigAlgs ∧ (∀ e ∈ added, HandedOn suite e) ∧
      ∀ e ∈ added, e.1.kind = .sig → e.1.alg = name → e.2 = 0 := by
  obtain ⟨added, exits, tests, each⟩ := memTestsAdds suite numRuns kemAlgs sigAlgs s
  refine ⟨added, exits, tests, each, fun e member sig named => ?_⟩
  have programs : ∀ op, suite.program e.1.kind e.1.run e.1.alg op =
      some (crossProgram category shake (proc e.1.run) (buffers e.1.run) (random e.1.run) op) := fun op => by
    rw [sig, named]
    exact congrArg (Option.map sigProgram) (listed e.1.run op)
  rw [each e member _ _ _ (programs 0) (programs 1) (programs 2) (crossPassing category shake _ _ _), crossVerdict]
  exact if_pos (.inr rfl)

def zeroBuffers : Buffers := ⟨Mem.zero, Mem.zero, Mem.zero, Mem.zero⟩

def zeroProcess : CrossProcess Cross.Category.one.parameters where
  build := .portable
  seedSk := Armor.Block.zero _
  draws := ⟨Armor.Block.zero _, Armor.Block.zero _, fun _ => Armor.Block.zero _⟩
  arrays := ⟨fun _ => Armor.Block.zero _, fun _ => Vector.replicate _ 0, fun _ => Vector.replicate _ 0,
    fun _ => Vector.replicate _ 0⟩

def zeroShake : Cross.Shake := fun _ _ n => Armor.Block.zero n

def crossSuite : Suite where
  kems _ _ _ := none
  sigs _ _ op := some (crossSigProcess .one zeroShake (fun _ => zeroProcess) (fun _ => zeroBuffers)
    (fun _ => Armor.Block.zero _) op)
  here := true

theorem crossMemTestsTwoRuns :
    ∃ added, (crossSuite.memTests 2 ["BIKE-L1"] ["cross-rsdpg-128-balanced"] ⟨none, []⟩).exits = [] ++ added ∧
      added.map Prod.fst = memMeasurements 2 ["BIKE-L1"] ["cross-rsdpg-128-balanced"] ∧ (∀ e ∈ added, HandedOn crossSuite e) ∧
      ∀ e ∈ added, e.1.kind = .sig → e.1.alg = "cross-rsdpg-128-balanced" → e.2 = 0 :=
  crossMemTests .one zeroShake crossSuite "cross-rsdpg-128-balanced" (fun _ _ => zeroProcess) (fun _ _ => zeroBuffers)
    (fun _ _ => Armor.Block.zero _) (fun _ _ => rfl) 2 ["BIKE-L1"] ["cross-rsdpg-128-balanced"] ⟨none, []⟩

end Armor.Results.MemoryPrograms
