import Armor.Lib.Text
import Mathlib.Data.List.Nodup
import Mathlib.Data.List.TakeWhile

/-! `get_algorithms.py`: the lists it extracts from the output of the called programs, the set-up that empties
`test_data/alg_lists` for every argument, and what a run leaves there. Files there can be removed and written. -/
namespace Armor.Setup.AlgorithmLists
open Text (contains startsWith strip)

section Extract

inductive Kind where
  | kem
  | sig
  deriving DecidableEq, Repr

inductive Provider where
  | default_
  | oqsprovider
  deriving DecidableEq, Repr

def dropStart (start : String) (alg : List Char) : Option (List Char) :=
  if start.toList.isPrefixOf alg then some (alg.drop start.length) else none

def splitFirst (mark : List Char) : List Char → Option (List Char × List Char)
  | [] => none
  | c :: rest =>
    if mark.isPrefixOf (c :: rest) then some ([], (c :: rest).drop mark.length)
    else (splitFirst mark rest).map fun parts => (c :: parts.1, parts.2)

def namedAlgs (line : String) : Option (List String) :=
  (splitFirst "algname:".toList line.toList).map fun parts =>
    ((strip (String.ofList parts.2)).toList.splitOn ',').filterMap fun alg =>
      if strip (String.ofList alg) = "" then none else some (strip (String.ofList alg))

/-- `liboqs_extract_algs` on the lines of the output: the last line that names algorithms counts. -/
def liboqsExtractAlgs (lines : List String) : Option (List String) := (lines.filterMap namedAlgs).getLast?

/-- The last alias in braces, else the text before ` @ `. -/
def algName (line : String) : String :=
  let alg := strip line
  if startsWith alg "\x7b" then
    let trim := fun part : List Char => part.dropWhile (· ∈ ['{', ' '])
    let items := (trim (trim (alg.toList.takeWhile (· ≠ '}'))).reverse).reverse
    strip (String.ofList (items.reverse.takeWhile (· ≠ ',')).reverse)
  else match splitFirst " @ ".toList alg.toList with
    | some parts => String.ofList parts.1
    | none => alg

def isNameChar (c : Char) : Bool := c.isAlphanum || c = '_' || c = '-'

/-- `^(rsa[0-9]+|p[0-9]+|x[0-9]+|X25519|X448|SecP256r1|SecP384r1|SecP521r1)[a-zA-Z0-9_-]+$` -/
def isHybrid (alg : List Char) : Bool :=
  (["rsa", "p", "x"].any fun start => match dropStart start alg with
    | some (digit :: c :: rest) => digit.isDigit && (c :: rest).all isNameChar
    | _ => false) ||
  ["X25519", "X448", "SecP256r1", "SecP384r1", "SecP521r1"].any fun start => match dropStart start alg with
    | some (c :: rest) => (c :: rest).all isNameChar
    | _ => false

def numbered (start : String) (alg : List Char) : Bool :=
  match dropStart start alg with
  | some (c :: rest) => (c :: rest).all Char.isDigit
  | _ => false

/-- `^(MLKEM[0-9]+|MLDSA[0-9]+)$`, the second only for handshakes. -/
def isNative (speed : Bool) (alg : List Char) : Bool := numbered "MLKEM" alg || (!speed && numbered "MLDSA" alg)

/-- `^(p(256|384|521)_)?(OV_|snova)` -/
def isMultivariate (alg : List Char) : Bool :=
  let name := (["p256_", "p384_", "p521_"].findSome? fun curve => dropStart curve alg).getD alg
  "OV_".toList.isPrefixOf name || "snova".toList.isPrefixOf name

def includeList : List String :=
  ["OV_Ip_pkc", "p256_OV_Ip_pkc", "OV_Ip_pkc_skc", "p256_OV_Ip_pkc_skc", "snova2454", "p256_snova2454",
    "snova2454esk", "p256_snova2454esk", "snova37172", "p256_snova37172", "snova2455", "p384_snova2455",
    "snova2965", "p521_snova2965"]

def isExcluded (alg : String) : Bool :=
  (isMultivariate alg.toList && !(alg ∈ includeList)) || alg ∈ ["CROSSrsdp256small", "X448MLKEM1024"]

/-- `re.sub(r'^MLKEM(\d+)$', r'ML-KEM-\1', alg)` -/
def speedName (alg : String) : String :=
  if numbered "MLKEM" alg.toList then "ML-KEM-" ++ String.ofList (alg.toList.drop 5) else alg

abbrev Extracted := List String × List String

def extractAlg (speed : Bool) (provider : Provider) (found : Extracted) (line : String) : Extracted :=
  let alg := algName line
  if !speed && isExcluded alg then found
  else match provider with
    | .default_ =>
      if isNative speed alg.toList then (found.1 ++ [strip (if speed then speedName alg else alg)], found.2)
      else if isHybrid alg.toList then (found.1, found.2 ++ [strip alg])
      else found
    | .oqsprovider =>
      if isHybrid alg.toList then (found.1, found.2 ++ [strip alg]) else (found.1 ++ [strip alg], found.2)

def extractTlsAlgs (speed : Bool) (provider : Provider) (lines : List String) : Extracted :=
  lines.foldl (extractAlg speed provider) ([], [])

def mainAlgs (inTable : Bool) : List String → Option (List String)
  | [] => some []
  | line :: rest =>
    if contains line "<!--- OQS_TEMPLATE_FRAGMENT_IDS_START -->" then mainAlgs true rest
    else if contains line "<!--- OQS_TEMPLATE_FRAGMENT_IDS_END -->" then some []
    else if inTable then
      if contains line "Algorithm" || contains line "--" then mainAlgs inTable rest
      else match line.toList.splitOn '|' with
        | _ :: name :: _ => (mainAlgs inTable rest).map (strip (String.ofList name) :: ·)
        | _ => none
    else mainAlgs inTable rest

inductive Count where
  | counted (algorithms : Nat)
  | noNumber
  | fileNotFound
  | parseFailed
  | other
  deriving DecidableEq, Repr

def parseOqsProviderAlgorithmsMd (algorithmsMd : Option (List String)) : Count :=
  match algorithmsMd with
  | none => .fileNotFound
  | some lines =>
    match mainAlgs false lines with
    | none => .parseFailed
    | some [] => .parseFailed
    | some names => .counted names.length

end Extract

section Directory

inductive Entry where
  | file (content : String)
  | directory
  deriving DecidableEq, Repr

def Entry.isFile : Entry → Bool
  | .file _ => true
  | .directory => false

structure Listing where
  entries : List (String × Entry)
  distinct : (entries.map Prod.fst).Nodup

inductive AlgLists where
  | absent
  | blocked
  | dir (listing : Listing)

def Listing.empty : Listing := ⟨[], List.nodup_nil⟩

/-- What the loop over `os.remove` leaves: it stops at a subdirectory. -/
def Listing.removeFiles (l : Listing) : Listing where
  entries := l.entries.dropWhile fun e => e.2.isFile
  distinct := l.distinct.sublist ((List.dropWhile_sublist _).map _)

abbrev Write := String × List String

def Listing.write (l : Listing) (w : Write) : Listing where
  entries := l.entries.filter (fun e => e.1 ≠ w.1) ++ [(w.1, .file (String.join (w.2.map (· ++ "\n"))))]
  distinct := by
    rw [List.map_append, List.nodup_append]
    refine ⟨l.distinct.sublist (List.filter_sublist.map _), List.nodup_singleton _, ?_⟩
    intro name member name' last same
    obtain ⟨e, kept, rfl⟩ := List.mem_map.mp member
    have other := of_decide_eq_true (List.mem_filter.mp kept).2
    exact other (same.trans (List.mem_singleton.mp last))

def Listing.writeAll (writes : List Write) : Listing := writes.foldl Listing.write Listing.empty

def AlgLists.find : AlgLists → String → Option Entry
  | .dir l, name => l.entries.lookup name
  | _, _ => none

def SameFiles (before after : AlgLists) : Prop := ∀ name, before.find name = after.find name

end Directory

section Main

inductive BinRun where
  | missing
  | raises
  | prints (stderr : List String)

/-- What the run finds: the marker of the root, the directories, and how the called programs end. -/
structure Outcomes where
  rootDir : String
  rootMarker : Bool
  testData : Bool
  liboqsBuildDir : Bool
  opensslPath : Bool
  oqsProviderPath : Bool
  oqsProviderSrcDir : Bool
  hqcEnabled : Bool
  testBin : Kind → BinRun
  opensslList : Kind → Provider → Option (List String)
  algorithmsMd : Option (List String)

structure Steps where
  writes : List Write
  exit : Option Nat

def Steps.andThen (first second : Steps) : Steps :=
  match first.exit with
  | some _ => first
  | none => ⟨first.writes ++ second.writes, second.exit⟩

def fail : Steps := ⟨[], some 1⟩

variable (o : Outcomes)

def testBinPath (kind : Kind) : String :=
  o.rootDir ++ "/lib/liboqs/build/tests" ++ match kind with
    | .kem => "/test_kem"
    | .sig => "/test_sig"

/-- `if "kem" in bin`, where `bin` is the whole path. -/
def liboqsFile (kind : Kind) : String := if contains (testBinPath o kind) "kem" then "kem_algs.txt" else "sig_algs.txt"

def filterHqc (algs : List String) : List String :=
  if o.hqcEnabled then algs else algs.filter fun alg => !startsWith alg "HQC"

def liboqsLoop : List Kind → Steps
  | [] => ⟨[], none⟩
  | kind :: rest =>
    match o.testBin kind with
    | .missing => ⟨[], none⟩
    -- the exception is printed and the loop goes on
    | .raises => liboqsLoop rest
    | .prints stderr =>
      match liboqsExtractAlgs stderr with
      | none => fail
      | some algs => Steps.andThen ⟨[(liboqsFile o kind, filterHqc o algs)], none⟩ (liboqsLoop rest)

def getLiboqsAlgs : Steps := liboqsLoop o [.kem, .sig]

def Kind.short : Kind → String
  | .kem => "kem"
  | .sig => "sig"

def tlsFile (speed hybrid : Bool) (kind : Kind) : String :=
  "tls_" ++ (if speed then "speed_" else "") ++ (if hybrid then "hybr_" else "") ++ kind.short ++ "_algs.txt"

def tlsAlgs (speed : Bool) (defaultOut oqsOut : List String) : Extracted :=
  let default_ := extractTlsAlgs speed .default_ defaultOut
  let oqs := extractTlsAlgs speed .oqsprovider oqsOut
  (default_.1 ++ oqs.1, default_.2 ++ oqs.2)

def getTlsKind (kind : Kind) : Steps :=
  match o.opensslList kind .default_, o.opensslList kind .oqsprovider with
  | some defaultOut, some oqsOut =>
    let algs := tlsAlgs false defaultOut oqsOut
    let speedAlgs := tlsAlgs true defaultOut oqsOut
    ⟨[(tlsFile false false kind, algs.1), (tlsFile false true kind, algs.2),
      (tlsFile true false kind, speedAlgs.1), (tlsFile true true kind, speedAlgs.2)], none⟩
  -- the exception is not caught
  | _, _ => fail

def getTlsPqcAlgs : Steps := (getTlsKind o .kem).andThen (getTlsKind o .sig)

def setTlsClassicAlgs : Steps :=
  ⟨[("classic_tls_kem_algs.txt", ["prime256v1"]), ("classic_tls_sig_algs.txt", ["RSA_2048"])], none⟩

def countAlgorithms : Count :=
  if o.oqsProviderSrcDir then parseOqsProviderAlgorithmsMd o.algorithmsMd else .other

def dispatch (arg : String) : Steps :=
  if arg = "1" then if o.liboqsBuildDir then getLiboqsAlgs o else fail
  else if arg = "2" then
    if o.liboqsBuildDir && o.oqsProviderPath && o.opensslPath then
      ((getLiboqsAlgs o).andThen (getTlsPqcAlgs o)).andThen setTlsClassicAlgs
    else fail
  else if arg = "3" then
    if o.oqsProviderPath && o.opensslPath then (getTlsPqcAlgs o).andThen setTlsClassicAlgs else fail
  else if arg = "4" then
    match countAlgorithms o with
    | .counted _ => ⟨[], some 0⟩
    | _ => fail
  else fail

/-- `setup_base_env`: none where it comes to its end, with the directory empty, else what it leaves. -/
def setupBaseEnv (before : AlgLists) : Option AlgLists :=
  if o.rootMarker then
    match before with
    | .dir l => if l.removeFiles.entries = [] then none else some (.dir l.removeFiles)
    | .absent => if o.testData then none else some .absent
    | .blocked => some .blocked
  else some before

structure Result where
  status : Nat
  algLists : AlgLists
  written : List Write

def main (args : List String) (before : AlgLists) : Result :=
  if "--help" ∈ args then ⟨0, before, []⟩
  else match args with
    | [arg] =>
      match setupBaseEnv o before with
      | some left => ⟨1, left, []⟩
      | none =>
        let steps := dispatch o arg
        ⟨steps.exit.getD 0, .dir (Listing.writeAll steps.writes), steps.writes⟩
    | _ => ⟨1, before, []⟩

end Main

def liboqsFiles : List String := ["kem_algs.txt", "sig_algs.txt"]

def tlsFiles : List String :=
  [Kind.kem, .sig].flatMap fun kind => [false, true].flatMap fun speed =>
    [false, true].map fun hybrid => tlsFile speed hybrid kind

def classicFiles : List String := ["classic_tls_kem_algs.txt", "classic_tls_sig_algs.txt"]

def listFiles (arg : String) : List String :=
  if arg = "1" then liboqsFiles
  else if arg = "2" then liboqsFiles ++ tlsFiles ++ classicFiles
  else if arg = "3" then tlsFiles ++ classicFiles
  else []

structure AllOrNothing (args : List String) (before : AlgLists) (r : Result) : Prop where
  nothing : r.status ≠ 0 ∨ args = ["4"] → SameFiles before r.algLists
  all : r.status = 0 → ∀ arg, args = [arg] → ∀ file ∈ listFiles arg, file ∈ r.written.map Prod.fst

section Condition

variable (o : Outcomes)

def Untouched (args : List String) (before : AlgLists) : Prop :=
  "--help" ∈ args ∨ args.length ≠ 1 ∨ o.rootMarker = false ∨
    match before with
    | .absent => o.testData = false
    | .blocked => True
    | .dir l => ∃ name, l.entries.head? = some (name, .directory)

def NoSubdirectory (before : AlgLists) : Prop :=
  match before with
  | .dir l => ∀ e ∈ l.entries, e.2.isFile = true
  | _ => True

def ListsLiboqs : Prop :=
  (∀ kind, ∃ stderr algs, o.testBin kind = .prints stderr ∧ liboqsExtractAlgs stderr = some algs) ∧
    contains (testBinPath o .sig) "kem" = false

def ListsTls : Prop := ∀ kind provider, (o.opensslList kind provider).isSome = true

def Complete (arg : String) : Prop :=
  if arg = "1" then o.liboqsBuildDir = true ∧ ListsLiboqs o
  else if arg = "2" then
    (o.liboqsBuildDir && o.oqsProviderPath && o.opensslPath) = true ∧ ListsLiboqs o ∧ ListsTls o
  else if arg = "3" then (o.oqsProviderPath && o.opensslPath) = true ∧ ListsTls o
  else False

def LibrariesThere (arg : String) : Prop :=
  (arg = "1" ∧ o.liboqsBuildDir = true) ∨ (arg = "2" ∧ (o.liboqsBuildDir && o.oqsProviderPath && o.opensslPath) = true) ∨
    (arg = "3" ∧ (o.oqsProviderPath && o.opensslPath) = true)

def namedBy (kind : Kind) : Option (List String) :=
  match o.testBin kind with
  | .prints stderr => (liboqsExtractAlgs stderr).map (filterHqc o)
  | _ => none

def namesNone (kind : Kind) : Bool :=
  match o.testBin kind with
  | .prints stderr => (liboqsExtractAlgs stderr).isNone
  | _ => false

def liboqsFails : Bool :=
  match o.testBin .kem with
  | .missing => false
  | _ => namesNone o .kem || namesNone o .sig

def liboqsContent (name : String) : Option (List String) :=
  let sig := if name = liboqsFile o .sig then namedBy o .sig else none
  match o.testBin .kem with
  | .missing => none
  | .raises => sig
  | .prints stderr =>
    match liboqsExtractAlgs stderr with
    | none => none
    | some algs => sig.or (if name = "kem_algs.txt" then some (filterHqc o algs) else none)

def tlsKemContent (name : String) : Option (List String) :=
  match o.opensslList .kem .default_, o.opensslList .kem .oqsprovider with
  | some defaultOut, some oqsOut =>
    if name = tlsFile true true .kem then some (tlsAlgs true defaultOut oqsOut).2
    else if name = tlsFile true false .kem then some (tlsAlgs true defaultOut oqsOut).1
    else if name = tlsFile false true .kem then some (tlsAlgs false defaultOut oqsOut).2
    else if name = tlsFile false false .kem then some (tlsAlgs false defaultOut oqsOut).1
    else none
  | _, _ => none

def Holds (before : AlgLists) (content : String → Option (List String)) : Prop :=
  ∀ name, before.find name = (content name).map fun algs => .file (String.join (algs.map (· ++ "\n")))

def HeldAlready (before : AlgLists) (arg : String) : Prop :=
  (¬ LibrariesThere o arg ∧ Holds before fun _ => none) ∨ (LibrariesThere o arg ∧
    ((arg = "1" ∧ liboqsFails o = true ∧ Holds before (liboqsContent o)) ∨
      (arg = "2" ∧ liboqsFails o = true ∧ Holds before (liboqsContent o)) ∨
      (arg = "2" ∧ liboqsFails o = false ∧ ¬ ListsTls o ∧
        Holds before fun name => (tlsKemContent o name).or (liboqsContent o name)) ∨
      (arg = "3" ∧ ¬ ListsTls o ∧ Holds before (tlsKemContent o))))

/-- The run does not touch the directory, or meets no subdirectory there and is complete, or fails or counts
over a directory that held the very lists it leaves. -/
def Safe (args : List String) (before : AlgLists) : Prop :=
  Untouched o args before ∨ (NoSubdirectory before ∧ ∀ arg ∈ args, Complete o arg ∨ HeldAlready o before arg)

end Condition

section Writes

def Steps.names (s : Steps) : List String := s.writes.map Prod.fst

def Steps.ExitsOne (s : Steps) : Prop := ∀ k, s.exit = some k → k = 1

theorem Steps.ExitsOne.andThen {first second : Steps} (one : first.ExitsOne) (then_ : second.ExitsOne) :
    (first.andThen second).ExitsOne := by
  unfold Steps.andThen
  cases found : first.exit with
  | none => exact then_
  | some k => exact one

theorem Steps.andThenExit {first second : Steps} :
    (first.andThen second).exit = none ↔ first.exit = none ∧ second.exit = none := by
  unfold Steps.andThen
  cases found : first.exit with
  | none => exact (and_iff_right rfl).symm
  | some k =>
    dsimp only
    rw [found]
    exact iff_of_false nofun fun both => nomatch both.1

theorem Steps.andThenEnds {first second : Steps} (ends : (first.andThen second).exit = none) :
    first.exit = none ∧ second.exit = none ∧ (first.andThen second).names = first.names ++ second.names := by
  unfold Steps.andThen at ends ⊢
  cases found : first.exit with
  | none =>
    rw [found] at ends
    exact ⟨rfl, ends, List.map_append⟩
  | some k =>
    rw [found] at ends
    dsimp only at ends
    rw [found] at ends
    cases ends

theorem failOne : fail.ExitsOne := by
  intro k same
  cases same
  rfl

theorem writesOne (writes : List Write) : (Steps.mk writes none).ExitsOne := nofun

variable {o : Outcomes}

theorem liboqsOne (kinds : List Kind) : (liboqsLoop o kinds).ExitsOne := by
  induction kinds with
  | nil => exact writesOne []
  | cons kind kinds ih =>
    rw [liboqsLoop]
    split
    · exact writesOne []
    · exact ih
    · split
      · exact failOne
      · exact (writesOne _).andThen ih

theorem tlsKindOne (kind : Kind) : (getTlsKind o kind).ExitsOne := by
  unfold getTlsKind
  split
  · exact writesOne _
  · exact failOne

theorem kemFile : liboqsFile o .kem = "kem_algs.txt" := by
  refine if_pos (decide_eq_true ?_)
  rw [testBinPath, String.toList_append]
  exact List.IsSuffix.isInfix ((show "kem".toList <:+ "/test_kem".toList by decide).trans (List.suffix_append _ _))

def madeBy (o : Outcomes) (kind : Kind) : List String :=
  match o.testBin kind with
  | .prints stderr => if (liboqsExtractAlgs stderr).isSome then [liboqsFile o kind] else []
  | _ => []

theorem liboqsNames (ends : (getLiboqsAlgs o).exit = none) : (getLiboqsAlgs o).names =
    match o.testBin .kem with
    | .missing => []
    | _ => madeBy o .kem ++ madeBy o .sig := by
  have last : (liboqsLoop o [.sig]).exit = none → (liboqsLoop o [.sig]).names = madeBy o .sig := by
    intro ends
    rw [liboqsLoop] at ends ⊢
    unfold madeBy
    cases sig : o.testBin .sig with
    | missing => rfl
    | raises => rfl
    | prints stderr =>
      rw [sig] at ends
      dsimp only at ends ⊢
      cases extracted : liboqsExtractAlgs stderr with
      | none =>
        rw [extracted] at ends
        cases ends
      | some algs => rfl
  rw [getLiboqsAlgs, liboqsLoop] at ends ⊢
  unfold madeBy
  cases kem : o.testBin .kem with
  | missing => rfl
  | raises =>
    rw [kem] at ends
    exact last ends
  | prints stderr =>
    rw [kem] at ends
    dsimp only at ends ⊢
    cases extracted : liboqsExtractAlgs stderr with
    | none =>
      rw [extracted] at ends
      cases ends
    | some algs =>
      rw [extracted] at ends
      obtain ⟨-, later, names⟩ := Steps.andThenEnds ends
      dsimp only
      rw [names, last later]
      rfl

theorem madeByOf (kind : Kind) : madeBy o kind = [] ∨ madeBy o kind = [liboqsFile o kind] ∧
    ∃ stderr algs, o.testBin kind = .prints stderr ∧ liboqsExtractAlgs stderr = some algs := by
  unfold madeBy
  split
  · next stderr prints =>
    cases extracted : liboqsExtractAlgs stderr with
    | none => exact .inl rfl
    | some algs => exact .inr ⟨rfl, stderr, algs, prints, extracted⟩
  · exact .inl rfl

theorem madeByPrints {kind : Kind} {stderr algs : List String} (prints : o.testBin kind = .prints stderr)
    (extracted : liboqsExtractAlgs stderr = some algs) : madeBy o kind = [liboqsFile o kind] := by
  unfold madeBy
  rw [prints]
  dsimp only
  rw [extracted]
  rfl

theorem liboqsLists (ends : (getLiboqsAlgs o).exit = none) :
    (∀ file ∈ liboqsFiles, file ∈ (getLiboqsAlgs o).names) ↔ ListsLiboqs o := by
  have apart : "sig_algs.txt" ≠ "kem_algs.txt" := by decide
  rw [liboqsNames ends]
  constructor
  · intro made
    have inBoth : ∀ file ∈ liboqsFiles, file ∈ madeBy o .kem ++ madeBy o .sig := by
      intro file member
      have here := made file member
      split at here
      · cases here
      · exact here
    have kemMade := inBoth "kem_algs.txt" (by decide)
    have sigMade := inBoth "sig_algs.txt" (by decide)
    have sigName : madeBy o .sig = ["sig_algs.txt"] ∧
        ∃ stderr algs, o.testBin .sig = .prints stderr ∧ liboqsExtractAlgs stderr = some algs := by
      cases List.mem_append.mp sigMade with
      | inl inKem =>
        rcases madeByOf (o := o) .kem with none_ | ⟨name, -⟩
        · rw [none_] at inKem
          cases inKem
        · rw [name, kemFile] at inKem
          exact absurd (List.mem_singleton.mp inKem) apart
      | inr inSig =>
        rcases madeByOf (o := o) .sig with none_ | ⟨name, prints⟩
        · rw [none_] at inSig
          cases inSig
        · rw [name] at inSig
          have same := List.mem_singleton.mp inSig
          exact ⟨by rw [name, ← same], prints⟩
    have notKem : contains (testBinPath o .sig) "kem" = false := by
      obtain ⟨name, stderr, algs, prints, extracted⟩ := sigName
      rw [madeByPrints prints extracted, List.singleton_inj, liboqsFile] at name
      by_contra found
      rw [if_pos (Bool.not_eq_false _ ▸ found)] at name
      exact apart name.symm
    refine ⟨fun kind => ?_, notKem⟩
    cases kind with
    | sig => exact sigName.2
    | kem =>
      rcases madeByOf (o := o) .kem with none_ | ⟨-, prints⟩
      · rw [none_, sigName.1] at kemMade
        exact absurd (List.mem_singleton.mp kemMade).symm apart
      · exact prints
  · rintro ⟨prints, notKem⟩
    obtain ⟨kemErr, kemAlgs, kemPrints, kemNamed⟩ := prints .kem
    obtain ⟨sigErr, sigAlgs, sigPrints, sigNamed⟩ := prints .sig
    have sigFile : liboqsFile o .sig = "sig_algs.txt" := if_neg (ne_true_of_eq_false notKem)
    rw [madeByPrints kemPrints kemNamed, madeByPrints sigPrints sigNamed, kemPrints, kemFile, sigFile]
    exact fun file member => member

theorem tlsNames (ends : (getTlsPqcAlgs o).exit = none) : (getTlsPqcAlgs o).names = tlsFiles := by
  obtain ⟨kem, sig, names⟩ := Steps.andThenEnds ends
  have each : ∀ kind, (getTlsKind o kind).exit = none → (getTlsKind o kind).names =
      [tlsFile false false kind, tlsFile false true kind, tlsFile true false kind, tlsFile true true kind] := by
    intro kind ends
    unfold getTlsKind at ends ⊢
    split at ends
    · rfl
    · cases ends
  rw [getTlsPqcAlgs, names, each .kem kem, each .sig sig]
  rfl

theorem liboqsEnds (lists : ListsLiboqs o) : (getLiboqsAlgs o).exit = none := by
  obtain ⟨kemErr, kemAlgs, kemPrints, kemNamed⟩ := lists.1 .kem
  obtain ⟨sigErr, sigAlgs, sigPrints, sigNamed⟩ := lists.1 .sig
  rw [getLiboqsAlgs, liboqsLoop, kemPrints]
  dsimp only
  rw [kemNamed]
  dsimp only
  rw [Steps.andThenExit, liboqsLoop, sigPrints]
  dsimp only
  rw [sigNamed]
  exact ⟨rfl, rfl⟩

theorem tlsEnds : (getTlsPqcAlgs o).exit = none ↔ ListsTls o := by
  have each : ∀ kind, (getTlsKind o kind).exit = none ↔ ∀ provider, (o.opensslList kind provider).isSome = true := by
    intro kind
    unfold getTlsKind
    split
    · next defaultOut oqsOut =>
      refine iff_of_true rfl fun provider => ?_
      cases provider with
      | default_ => rw [defaultOut]; rfl
      | oqsprovider => rw [oqsOut]; rfl
    · next missing =>
      refine iff_of_false nofun fun all => ?_
      obtain ⟨defaultOut, first⟩ := Option.isSome_iff_exists.mp (all .default_)
      obtain ⟨oqsOut, second⟩ := Option.isSome_iff_exists.mp (all .oqsprovider)
      exact missing _ _ first second
  rw [getTlsPqcAlgs, Steps.andThenExit, each, each]
  constructor
  · rintro ⟨kem, sig⟩ kind
    cases kind with
    | kem => exact kem
    | sig => exact sig
  · exact fun all => ⟨all .kem, all .sig⟩

theorem tlsOne : (getTlsPqcAlgs o).ExitsOne := (tlsKindOne .kem).andThen (tlsKindOne .sig)

theorem dispatchOne (arg : String) (other : arg ≠ "4") : (dispatch o arg).ExitsOne := by
  unfold dispatch
  rw [if_neg other]
  repeat' split
  · exact liboqsOne _
  · exact failOne
  · exact ((liboqsOne _).andThen tlsOne).andThen (writesOne _)
  · exact failOne
  · exact tlsOne.andThen (writesOne _)
  · exact failOne
  · exact failOne

theorem liboqsComplete : ((getLiboqsAlgs o).exit = none ∧
    ∀ file ∈ liboqsFiles, file ∈ (getLiboqsAlgs o).names) ↔ ListsLiboqs o :=
  ⟨fun both => (liboqsLists both.1).mp both.2, fun lists => ⟨liboqsEnds lists, (liboqsLists (liboqsEnds lists)).mpr lists⟩⟩

theorem tlsComplete : (((getTlsPqcAlgs o).andThen setTlsClassicAlgs).exit = none ∧
    ∀ file ∈ tlsFiles ++ classicFiles, file ∈ ((getTlsPqcAlgs o).andThen setTlsClassicAlgs).names) ↔ ListsTls o := by
  have classic : setTlsClassicAlgs.names = classicFiles := rfl
  rw [← tlsEnds]
  refine ⟨fun both => (Steps.andThenEnds both.1).1, fun tls => ?_⟩
  have ends : ((getTlsPqcAlgs o).andThen setTlsClassicAlgs).exit = none := Steps.andThenExit.mpr ⟨tls, rfl⟩
  obtain ⟨-, -, names⟩ := Steps.andThenEnds ends
  rw [names, tlsNames tls, classic]
  exact ⟨ends, fun file member => member⟩

theorem bothComplete : ((((getLiboqsAlgs o).andThen (getTlsPqcAlgs o)).andThen setTlsClassicAlgs).exit = none ∧
    ∀ file ∈ liboqsFiles ++ tlsFiles ++ classicFiles,
      file ∈ (((getLiboqsAlgs o).andThen (getTlsPqcAlgs o)).andThen setTlsClassicAlgs).names) ↔
    ListsLiboqs o ∧ ListsTls o := by
  have classic : setTlsClassicAlgs.names = classicFiles := rfl
  have apart : ∀ file ∈ liboqsFiles, file ∉ tlsFiles ∧ file ∉ classicFiles := by decide
  constructor
  · rintro ⟨ends, made⟩
    obtain ⟨both, -, all⟩ := Steps.andThenEnds ends
    obtain ⟨liboqs, tls, names⟩ := Steps.andThenEnds both
    rw [all, names, tlsNames tls, classic] at made
    refine ⟨(liboqsLists liboqs).mp fun file member => ?_, tlsEnds.mp tls⟩
    have here := made file (List.mem_append_left _ (List.mem_append_left _ member))
    rw [List.mem_append, List.mem_append] at here
    exact (here.resolve_right (apart file member).2).resolve_right (apart file member).1
  · rintro ⟨lists, asked⟩
    have ends : (((getLiboqsAlgs o).andThen (getTlsPqcAlgs o)).andThen setTlsClassicAlgs).exit = none := by
      rw [Steps.andThenExit, Steps.andThenExit]
      exact ⟨⟨liboqsEnds lists, tlsEnds.mpr asked⟩, rfl⟩
    obtain ⟨both, -, all⟩ := Steps.andThenEnds ends
    obtain ⟨liboqs, tls, names⟩ := Steps.andThenEnds both
    rw [all, names, tlsNames tls, classic]
    refine ⟨ends, fun file member => ?_⟩
    rw [List.mem_append, List.mem_append] at member ⊢
    exact member.imp_left (Or.imp_left ((liboqsLists liboqs).mpr lists file))

theorem dispatchComplete {arg : String} (other : arg ≠ "4") :
    ((dispatch o arg).exit = none ∧ ∀ file ∈ listFiles arg, file ∈ (dispatch o arg).names) ↔ Complete o arg := by
  have failed : fail.exit ≠ none := nofun
  unfold dispatch listFiles Complete
  by_cases one : arg = "1"
  · rw [if_pos one, if_pos one, if_pos one]
    split
    · next built =>
      rw [and_iff_right built]
      exact liboqsComplete
    · next missing => exact iff_of_false (fun both => failed both.1) fun both => missing both.1
  rw [if_neg one, if_neg one, if_neg one]
  by_cases two : arg = "2"
  · rw [if_pos two, if_pos two, if_pos two]
    split
    · next built =>
      rw [and_iff_right built]
      exact bothComplete
    · next missing => exact iff_of_false (fun both => failed both.1) fun both => missing both.1
  rw [if_neg two, if_neg two, if_neg two]
  by_cases three : arg = "3"
  · rw [if_pos three, if_pos three, if_pos three]
    split
    · next built =>
      rw [and_iff_right built]
      exact tlsComplete
    · next missing => exact iff_of_false (fun both => failed both.1) fun both => missing both.1
  rw [if_neg three, if_neg three, if_neg three, if_neg other]
  exact iff_of_false (fun both => failed both.1) id

end Writes

section Left

variable {o : Outcomes} {before : AlgLists} {arg : String}

def lastList (writes : List Write) (name : String) : Option (List String) :=
  writes.foldl (fun found w => if name = w.1 then some w.2 else found) none

theorem lastListFrom (writes : List Write) (name : String) (found : Option (List String)) :
    writes.foldl (fun found w => if name = w.1 then some w.2 else found) found = (lastList writes name).or found := by
  unfold lastList
  induction writes generalizing found with
  | nil => rfl
  | cons w writes ih =>
    rw [List.foldl_cons, List.foldl_cons, ih, ih (if name = w.1 then some w.2 else none)]
    cases writes.foldl (fun found w => if name = w.1 then some w.2 else found) none with
    | some last => rfl
    | none =>
      rw [Option.none_or, Option.none_or]
      split <;> rfl

theorem lastListAppend (first second : List Write) (name : String) :
    lastList (first ++ second) name = (lastList second name).or (lastList first name) := by
  rw [lastList, List.foldl_append, lastListFrom]
  rfl

theorem writeFinds (l : Listing) (w : Write) (name : String) : (AlgLists.dir (l.write w)).find name =
    if name = w.1 then some (.file (String.join (w.2.map (· ++ "\n")))) else (AlgLists.dir l).find name := by
  unfold AlgLists.find Listing.write
  dsimp only
  rw [List.lookup_append]
  split
  · next same =>
    have gone : (l.entries.filter fun e => e.1 ≠ w.1).lookup name = none := by
      refine List.lookup_eq_none_iff.mpr fun e member => bne_iff_ne.mpr fun equal => ?_
      exact of_decide_eq_true (List.mem_filter.mp member).2 (equal.symm.trans same)
    rw [gone, same, List.lookup_cons_self]
    rfl
  · next other =>
    have kept : ∀ entries : List (String × Entry), (entries.filter fun e => e.1 ≠ w.1).lookup name = entries.lookup name := by
      intro entries
      induction entries with
      | nil => rfl
      | cons e entries ih =>
        rw [List.filter_cons]
        split
        · rw [List.lookup_cons, List.lookup_cons, ih]
        · next dropped =>
          have same : e.1 = w.1 := by
            by_contra differ
            exact dropped (decide_eq_true differ)
          have apart : (name == e.1) = false := beq_eq_false_iff_ne.mpr fun equal => other (equal.trans same)
          rw [List.lookup_cons, apart, ih]
    have apart : (name == w.1) = false := beq_eq_false_iff_ne.mpr other
    rw [kept, List.lookup_cons, apart, List.lookup_nil, Option.or_none]

theorem writeAllFinds (writes : List Write) (name : String) : (AlgLists.dir (Listing.writeAll writes)).find name =
    (lastList writes name).map fun algs => .file (String.join (algs.map (· ++ "\n"))) := by
  induction writes using List.reverseRecOn with
  | nil => rfl
  | append_singleton writes w ih =>
    rw [Listing.writeAll, List.foldl_append, lastListAppend]
    refine (writeFinds _ w name).trans ?_
    unfold lastList
    rw [List.foldl_cons, List.foldl_nil]
    split
    · rfl
    · rw [Option.none_or]
      exact ih

theorem sameAsWritten {writes : List Write} {content : String → Option (List String)} (wrote : lastList writes = content) :
    SameFiles before (.dir (Listing.writeAll writes)) ↔ Holds before content := by
  unfold SameFiles Holds
  simp only [writeAllFinds, wrote]

theorem sigWrites (o : Outcomes) (name : String) : lastList (liboqsLoop o [.sig]).writes name =
    if name = liboqsFile o .sig then namedBy o .sig else none := by
  rw [liboqsLoop, namedBy]
  cases o.testBin .sig with
  | missing => exact (ite_self _).symm
  | raises => exact (ite_self _).symm
  | prints stderr =>
    dsimp only
    cases liboqsExtractAlgs stderr with
    | none => exact (ite_self _).symm
    | some algs => rfl

theorem liboqsWrites (o : Outcomes) : lastList (getLiboqsAlgs o).writes = liboqsContent o := by
  funext name
  rw [getLiboqsAlgs, liboqsLoop, liboqsContent]
  cases o.testBin .kem with
  | missing => rfl
  | raises => exact sigWrites o name
  | prints stderr =>
    dsimp only
    cases liboqsExtractAlgs stderr with
    | none => rfl
    | some algs =>
      dsimp only [Steps.andThen]
      rw [lastListAppend, sigWrites, kemFile]
      rfl

theorem liboqsExit (o : Outcomes) : (getLiboqsAlgs o).exit = none ↔ liboqsFails o = false := by
  have sig : (liboqsLoop o [.sig]).exit = none ↔ namesNone o .sig = false := by
    rw [liboqsLoop, namesNone]
    cases o.testBin .sig with
    | missing => exact iff_of_true rfl rfl
    | raises => exact iff_of_true rfl rfl
    | prints stderr =>
      dsimp only
      cases liboqsExtractAlgs stderr with
      | none => exact iff_of_false nofun nofun
      | some algs => exact iff_of_true rfl rfl
  unfold getLiboqsAlgs liboqsFails
  rw [liboqsLoop]
  cases kem : o.testBin .kem with
  | missing => exact iff_of_true rfl rfl
  | raises =>
    have first : namesNone o .kem = false := by rw [namesNone, kem]
    dsimp only
    rw [sig, first, Bool.false_or]
  | prints stderr =>
    dsimp only
    rw [namesNone, kem]
    dsimp only
    cases liboqsExtractAlgs stderr with
    | none => exact iff_of_false nofun nofun
    | some algs =>
      dsimp only
      rw [Steps.andThenExit, and_iff_right rfl, sig, Option.isNone_some, Bool.false_or]

theorem tlsWrites (failed : ¬ ListsTls o) : lastList (getTlsPqcAlgs o).writes = tlsKemContent o := by
  funext name
  unfold getTlsPqcAlgs tlsKemContent
  cases asked : o.opensslList .kem .default_ with
  | none =>
    have kem : getTlsKind o .kem = fail := by rw [getTlsKind, asked]
    rw [kem]
    rfl
  | some defaultOut =>
    cases asked' : o.opensslList .kem .oqsprovider with
    | none =>
      have kem : getTlsKind o .kem = fail := by rw [getTlsKind, asked, asked']
      rw [kem]
      rfl
    | some oqsOut =>
      have sig : getTlsKind o .sig = fail := by
        unfold getTlsKind
        split
        · next sigDefault sigOqs there there' =>
          refine absurd (fun kind provider => ?_) failed
          cases kind <;> cases provider <;> simp only [asked, asked', there, there', Option.isSome_some]
        · rfl
      rw [sig, getTlsKind, asked, asked']
      rfl

theorem someOne {s : Steps} (one : s.ExitsOne) : s.exit = some 1 ↔ s.exit ≠ none := by
  constructor
  · intro exits none_
    rw [exits] at none_
    cases none_
  · intro exits
    obtain ⟨k, found⟩ := Option.ne_none_iff_exists'.mp exits
    rw [found, one k found]

theorem liboqsStops (o : Outcomes) : (getLiboqsAlgs o).exit = some 1 ↔ liboqsFails o = true := by
  have one : (getLiboqsAlgs o).ExitsOne := liboqsOne _
  rw [someOne one, ne_eq, liboqsExit, Bool.not_eq_false]

theorem tlsStops {first : Steps} (ends : first.exit = none) (failed : ¬ ListsTls o) :
    ((first.andThen (getTlsPqcAlgs o)).andThen setTlsClassicAlgs).exit = some 1 ∧
      lastList ((first.andThen (getTlsPqcAlgs o)).andThen setTlsClassicAlgs).writes =
        fun name => (tlsKemContent o name).or (lastList first.writes name) := by
  have stops : (getTlsPqcAlgs o).exit = some 1 := (someOne tlsOne).mpr fun none_ => failed (tlsEnds.mp none_)
  simp only [Steps.andThen, ends, stops, true_and]
  funext name
  rw [lastListAppend, tlsWrites failed]

theorem failingLists : (((dispatch o arg).exit = some 1 ∨ arg = "4") ∧
    SameFiles before (.dir (Listing.writeAll (dispatch o arg).writes))) ↔ HeldAlready o before arg := by
  have nothing : lastList [] = fun _ => none := rfl
  unfold HeldAlready LibrariesThere dispatch
  by_cases one : arg = "1"
  · subst one
    by_cases built : o.liboqsBuildDir = true
    · simp [built, sameAsWritten (liboqsWrites o), liboqsStops]
    · simp [built, fail, sameAsWritten nothing]
  by_cases two : arg = "2"
  · subst two
    by_cases built : (o.liboqsBuildDir && o.oqsProviderPath && o.opensslPath) = true
    · by_cases fails : liboqsFails o = true
      · have stops := (liboqsStops o).mpr fails
        have whole : ((getLiboqsAlgs o).andThen (getTlsPqcAlgs o)).andThen setTlsClassicAlgs = getLiboqsAlgs o := by
          simp only [Steps.andThen, stops]
        simp [built, fails, whole, stops, sameAsWritten (liboqsWrites o)]
      · have ends := (liboqsExit o).mpr (Bool.not_eq_true _ ▸ fails)
        by_cases lists : ListsTls o
        · have whole : (((getLiboqsAlgs o).andThen (getTlsPqcAlgs o)).andThen setTlsClassicAlgs).exit = none :=
            Steps.andThenExit.mpr ⟨Steps.andThenExit.mpr ⟨ends, tlsEnds.mpr lists⟩, rfl⟩
          simp [built, fails, whole, lists]
        · obtain ⟨stops, wrote⟩ := tlsStops ends lists
          rw [liboqsWrites] at wrote
          simp [built, fails, stops, lists, sameAsWritten wrote]
    · simp [built, fail, sameAsWritten nothing]
  by_cases three : arg = "3"
  · subst three
    by_cases built : (o.oqsProviderPath && o.opensslPath) = true
    · by_cases lists : ListsTls o
      · have whole : ((getTlsPqcAlgs o).andThen setTlsClassicAlgs).exit = none :=
          Steps.andThenExit.mpr ⟨tlsEnds.mpr lists, rfl⟩
        simp [built, whole, lists]
      · obtain ⟨stops, wrote⟩ := @tlsStops o ⟨[], none⟩ rfl lists
        change ((getTlsPqcAlgs o).andThen setTlsClassicAlgs).exit = some 1 at stops
        change lastList ((getTlsPqcAlgs o).andThen setTlsClassicAlgs).writes = _ at wrote
        simp only [nothing, Option.or_none] at wrote
        simp [built, stops, lists, sameAsWritten wrote]
    · simp [built, fail, sameAsWritten nothing]
  by_cases four : arg = "4"
  · subst four
    have writes : (match countAlgorithms o with | .counted _ => (⟨[], some 0⟩ : Steps) | _ => fail).writes = [] := by
      cases countAlgorithms o <;> rfl
    simp only [one, two, three, if_false, if_true, writes]
    simp [sameAsWritten nothing]
  · simp [one, two, three, four, fail, sameAsWritten nothing]

end Left

section Setup

variable {o : Outcomes} {before left : AlgLists} {arg : String}

theorem sameFilesRefl (lists : AlgLists) : SameFiles lists lists := fun _ => rfl

theorem removeFilesSame {l : Listing} (stops : l.removeFiles.entries ≠ []) :
    SameFiles (.dir l) (.dir l.removeFiles) ↔ ∃ name, l.entries.head? = some (name, .directory) := by
  obtain ⟨entries, distinct⟩ := l
  cases entries with
  | nil => exact absurd rfl stops
  | cons e rest =>
    obtain ⟨name, entry⟩ := e
    cases entry with
    | directory => exact iff_of_true (sameFilesRefl _) ⟨name, rfl⟩
    | file content =>
      refine iff_of_false (fun same => ?_) (by rintro ⟨_, first⟩; cases first)
      have here := same name
      have kept : (AlgLists.dir (Listing.removeFiles ⟨(name, .file content) :: rest, distinct⟩)).find name = none := by
        refine List.lookup_eq_none_iff.mpr fun e member => ?_
        have inRest : e ∈ rest := (List.dropWhile_sublist _).subset member
        rw [List.map_cons, List.nodup_cons] at distinct
        have listed : e.1 ∈ rest.map Prod.fst := List.mem_map_of_mem inRest
        exact bne_iff_ne.mpr fun same => distinct.1 (same ▸ listed)
      have was : (AlgLists.dir ⟨(name, .file content) :: rest, distinct⟩).find name = some (.file content) :=
        List.lookup_cons_self
      rw [was, kept] at here
      cases here

theorem removesAll {l : Listing} : l.removeFiles.entries = [] ↔ NoSubdirectory (.dir l) :=
  List.dropWhile_eq_nil_iff

theorem setupStops (help : "--help" ∉ [arg]) (setup : setupBaseEnv o before = some left) :
    SameFiles before left ↔ Safe o [arg] before := by
  unfold setupBaseEnv at setup
  unfold Safe Untouched
  split at setup
  · next marker =>
    have plain : ∀ p : Prop, ("--help" ∈ [arg] ∨ [arg].length ≠ 1 ∨ o.rootMarker = false ∨ p) ↔ p := by
      intro p
      rw [marker]
      simp only [help, List.length_singleton, ne_eq, not_true, false_or, Bool.true_eq_false]
    rw [plain]
    cases before with
    | dir l =>
      dsimp only at setup ⊢
      split at setup
      · cases setup
      · next stops =>
        cases setup
        rw [removeFilesSame stops, or_iff_left fun both => stops (removesAll.mpr both.1)]
    | absent =>
      dsimp only at setup
      split at setup
      · cases setup
      · next missing =>
        cases setup
        exact iff_of_true (sameFilesRefl _) (.inl (Bool.eq_false_iff.mpr missing))
    | blocked =>
      cases setup
      exact iff_of_true (sameFilesRefl _) (.inl trivial)
  · next missing =>
    cases setup
    exact iff_of_true (sameFilesRefl _) (.inl (.inr (.inr (.inl (Bool.eq_false_iff.mpr missing)))))

theorem setupDone (help : "--help" ∉ [arg]) (setup : setupBaseEnv o before = none) :
    ¬ Untouched o [arg] before ∧ NoSubdirectory before := by
  unfold setupBaseEnv at setup
  unfold Untouched
  split at setup
  · next marker =>
    rw [marker]
    simp only [help, List.length_singleton, ne_eq, not_true, false_or, Bool.true_eq_false]
    cases before with
    | dir l =>
      dsimp only at setup ⊢
      split at setup
      · next cleared =>
        have files := removesAll.mp cleared
        refine ⟨?_, files⟩
        rintro ⟨name, first⟩
        have isFile := files _ (List.mem_of_mem_head? first)
        cases isFile
      · cases setup
    | absent =>
      dsimp only at setup ⊢
      split at setup
      · next there => exact ⟨ne_false_of_eq_true there, trivial⟩
      · cases setup
    | blocked => cases setup
  · cases setup

end Setup

section Outcome

variable {before left : AlgLists} {written : List Write}

theorem failedLists {args : List String} : AllOrNothing args before ⟨1, left, written⟩ ↔ SameFiles before left :=
  ⟨fun lists => lists.nothing (.inl nofun), fun same => ⟨fun _ => same, nofun⟩⟩

theorem queriedLists {status : Nat} : AllOrNothing ["4"] before ⟨status, left, written⟩ ↔ SameFiles before left := by
  have nothing : listFiles "4" = [] := by decide
  refine ⟨fun lists => lists.nothing (.inr rfl), fun same => ⟨fun _ => same, fun _ arg single => ?_⟩⟩
  cases single
  rw [nothing]
  exact nofun

theorem finishedLists {arg : String} (other : arg ≠ "4") : AllOrNothing [arg] before ⟨0, left, written⟩ ↔
    ∀ file ∈ listFiles arg, file ∈ written.map Prod.fst := by
  refine ⟨fun lists => lists.all rfl arg rfl, fun made => ⟨fun failed => ?_, fun _ arg' single => ?_⟩⟩
  · cases failed with
    | inl failed => exact absurd rfl failed
    | inr single => exact absurd (List.cons.inj single).1 other
  · cases single
    exact made

theorem helpedLists {args : List String} (help : "--help" ∈ args) : AllOrNothing args before ⟨0, before, written⟩ := by
  have nothing : listFiles "--help" = [] := by decide
  refine ⟨fun _ => sameFilesRefl _, fun _ arg single => ?_⟩
  rw [single] at help
  rw [← List.mem_singleton.mp help, nothing]
  exact nofun

end Outcome

theorem listsAllOrNothing (o : Outcomes) (args : List String) (before : AlgLists) :
    AllOrNothing args before (main o args before) ↔ Safe o args before := by
  by_cases help : "--help" ∈ args
  · have ran : main o args before = ⟨0, before, []⟩ := if_pos help
    rw [ran]
    exact iff_of_true (helpedLists help) (.inl (.inl help))
  unfold main
  rw [if_neg help]
  match args with
  | [] => exact iff_of_true (failedLists.mpr (sameFilesRefl _)) (.inl (.inr (.inl nofun)))
  | _ :: _ :: _ => exact iff_of_true (failedLists.mpr (sameFilesRefl _)) (.inl (.inr (.inl nofun)))
  | [arg] =>
    dsimp only
    cases setup : setupBaseEnv o before with
    | some left =>
      dsimp only
      rw [failedLists, setupStops help setup]
    | none =>
      obtain ⟨touched, files⟩ := setupDone help setup
      unfold Safe
      rw [or_iff_right touched, and_iff_right files, List.forall_mem_singleton]
      dsimp only
      by_cases query : arg = "4"
      · subst query
        have incomplete : ¬ Complete o "4" := id
        rw [queriedLists, or_iff_right incomplete, ← failingLists, and_iff_right (.inr rfl)]
      have one := dispatchOne (o := o) arg query
      cases ended : (dispatch o arg).exit with
      | none =>
        rw [← failingLists, ← dispatchComplete query, ended]
        dsimp only [Option.getD_none]
        rw [finishedLists query, and_iff_right rfl]
        refine ⟨.inl, fun safe => safe.resolve_right fun other => ?_⟩
        cases other.1.resolve_right query
      | some k =>
        have isOne : k = 1 := one k ended
        subst isOne
        have incomplete : ¬ Complete o arg := fun complete => by
          rw [((dispatchComplete query).mpr complete).1] at ended
          cases ended
        dsimp only [Option.getD_some]
        rw [failedLists, or_iff_right incomplete, ← failingLists, and_iff_right (.inl ended)]

def setUp : Outcomes where
  rootDir := "/leo"
  rootMarker := true
  testData := true
  liboqsBuildDir := true
  opensslPath := true
  oqsProviderPath := true
  oqsProviderSrcDir := true
  hqcEnabled := false
  testBin _ := .missing
  opensslList _ _ := none
  algorithmsMd := some ["<!--- OQS_TEMPLATE_FRAGMENT_IDS_START -->", "| mlkem512 | x |"]

theorem queryDeletesLists : ¬ ∀ (o : Outcomes) (args : List String) (before : AlgLists),
    AllOrNothing args before (main o args before) := by
  intro whole
  have same := (whole setUp ["4"] (.dir ⟨[("kem_algs.txt", .file "ML-KEM-512\n")], List.nodup_singleton _⟩)).nothing
    (.inr rfl) "kem_algs.txt"
  cases same

end Armor.Setup.AlgorithmLists
