import Armor.Tls.ResultFiles

/-! The keys and certificates of the handshake tests, from `tls_generate_keys.sh` to the files that the
server is started with and the client verifies by. What `openssl` does is a parameter. -/
namespace Armor.Tls
open Recording (recordAll)

structure KeyPair where
  algorithm : String
  number : Nat
  deriving DecidableEq, Repr

inductive Credential where
  | key (pair : KeyPair)
  | request (pair : KeyPair)
  | certificate (issuer subject : KeyPair)
  deriving DecidableEq, Repr

inductive CredentialPart where
  | caKey
  | caCrt
  | srvKey
  | srvCsr
  | srvCrt
  deriving DecidableEq, Repr

def CredentialPart.suffix : CredentialPart → String
  | .caKey => "_CA.key"
  | .caCrt => "_CA.crt"
  | .srvKey => "_srv.key"
  | .srvCsr => "_srv.csr"
  | .srvCrt => "_srv.crt"

abbrev Place := TestType × String

def credentialFile (place : Place) (part : CredentialPart) : TestType × String := (place.1, place.2 ++ part.suffix)

abbrev KeyFiles := TestType × String → Option Credential

inductive OpensslCommand where
  | ecparamGenkey (curve : String) (out : TestType × String)
  | reqNewkey (x509 : Bool) (newkey : String) (keyout out : TestType × String)
  | reqKey (x509 : Bool) (key out : TestType × String)
  | x509Req (request out ca caKey : TestType × String)

def OpensslCommand.outs : OpensslCommand → List (TestType × String)
  | .ecparamGenkey _ out => [out]
  | .reqNewkey _ _ keyout out => [keyout, out]
  | .reqKey _ _ out => [out]
  | .x509Req _ out _ _ => [out]

def reqOut (x509 : Bool) (pair : KeyPair) : Credential := if x509 then .certificate pair pair else .request pair

/-- What the script relies on of the `openssl` it calls. `run` is given how many commands went before, by which the
keys it draws may differ. A command that lacks an algorithm or an input ends before it opens its output. -/
structure Openssl where
  run : Nat → OpensslCommand → KeyFiles → KeyFiles
  newkeyKnown : String → Bool
  curveKnown : String → Bool
  -- a serial file of `-CAcreateserial` is no credential file
  elsewhere : ∀ number command files place part, credentialFile place part ∉ command.outs →
    run number command files (credentialFile place part) = files (credentialFile place part)
  genkey : ∀ number curve out files, curveKnown curve = true →
    ∃ pair : KeyPair, pair.algorithm = curve ∧ run number (.ecparamGenkey curve out) files out = some (.key pair)
  genkeyUnknown : ∀ number curve out files, curveKnown curve = false → run number (.ecparamGenkey curve out) files = files
  newkey : ∀ number x509 newkey keyout out files, newkeyKnown newkey = true → keyout ≠ out →
    ∃ pair : KeyPair, pair.algorithm = newkey ∧ run number (.reqNewkey x509 newkey keyout out) files keyout = some (.key pair) ∧
      run number (.reqNewkey x509 newkey keyout out) files out = some (reqOut x509 pair)
  newkeyUnknown : ∀ number x509 newkey keyout out files, newkeyKnown newkey = false →
    run number (.reqNewkey x509 newkey keyout out) files = files
  reqKey : ∀ number x509 key out files pair, files key = some (.key pair) →
    run number (.reqKey x509 key out) files out = some (reqOut x509 pair)
  reqKeyMissing : ∀ number x509 key out files, files key = none → run number (.reqKey x509 key out) files = files
  x509Req : ∀ number request out ca caKey files subject issuer pair, files request = some (.request subject) →
    files ca = some (.certificate issuer pair) → files caKey = some (.key pair) →
      run number (.x509Req request out ca caKey) files out = some (.certificate pair subject)
  x509ReqMissing : ∀ number request out ca caKey files, files request = none →
    run number (.x509Req request out ca caKey) files = files

inductive KeyCommand where
  | openssl (command : OpensslCommand)
  | remove (file : TestType × String)

def KeyCommand.outs : KeyCommand → List (TestType × String)
  | .openssl command => command.outs
  | .remove file => [file]

structure KeyStore where
  files : KeyFiles
  made : Nat

def keyStep (openssl : Openssl) (s : KeyStore) : KeyCommand → KeyStore
  | .openssl command => ⟨openssl.run s.made command s.files, s.made + 1⟩
  | .remove file => { s with files := Function.update s.files file none }

def newkeyCommands (newkey : String) (place : Place) : List KeyCommand :=
  [.openssl (.reqNewkey true newkey (credentialFile place .caKey) (credentialFile place .caCrt)),
    .openssl (.reqNewkey false newkey (credentialFile place .srvKey) (credentialFile place .srvCsr)),
    .openssl (.x509Req (credentialFile place .srvCsr) (credentialFile place .srvCrt) (credentialFile place .caCrt)
      (credentialFile place .caKey)),
    .remove (credentialFile place .srvCsr)]

def curveCommands (curve : String) (place : Place) : List KeyCommand :=
  [.openssl (.ecparamGenkey curve (credentialFile place .caKey)),
    .openssl (.reqKey true (credentialFile place .caKey) (credentialFile place .caCrt)),
    .openssl (.ecparamGenkey curve (credentialFile place .srvKey)),
    .openssl (.reqKey false (credentialFile place .srvKey) (credentialFile place .srvCsr)),
    .openssl (.x509Req (credentialFile place .srvCsr) (credentialFile place .srvCrt) (credentialFile place .caCrt)
      (credentialFile place .caKey)),
    .remove (credentialFile place .srvCsr)]

/-- `[[ $sig == RSA:* ]]` -/
def isRsa (sig : String) : Bool := Text.startsWith sig "RSA:"

/-- `${sig#RSA:}` -/
def rsaBits (sig : String) : String := String.ofList (sig.toList.drop 4)

def classicName (sig : String) : String := if isRsa sig then sigName sig else sig

example : classicName "RSA:2048" = "RSA_2048" ∧ classicName "prime256v1" = "prime256v1" := by decide

def classicAlgorithm (sig : String) : String := if isRsa sig then "rsa:" ++ rsaBits sig else sig

def classicKeygen (sigs : List String) : List KeyCommand := sigs.flatMap fun sig =>
  if isRsa sig then newkeyCommands ("rsa:" ++ rsaBits sig) (.classic, classicName sig)
  else curveCommands sig (.classic, classicName sig)

def pqcKeygen (sigAlgs : List String) : List KeyCommand := sigAlgs.flatMap fun sig => newkeyCommands sig (.pqc, sig)

def hybridPqcKeygen (hybridSigAlgs : List String) : List KeyCommand :=
  hybridSigAlgs.flatMap fun sig => newkeyCommands sig (.hybrid, sig)

def runCommands (openssl : Openssl) (commands : List KeyCommand) (s : KeyStore) : KeyStore :=
  commands.foldl (keyStep openssl) s

/-- `main`, from the emptied `$keys_dir` on. -/
def generateKeys (openssl : Openssl) (classicSigs sigAlgs hybridSigAlgs : List String) : KeyStore :=
  runCommands openssl (classicKeygen classicSigs ++ pqcKeygen sigAlgs ++ hybridPqcKeygen hybridSigAlgs) ⟨fun _ => none, 0⟩

theorem credentialFileInj {place other : Place} {part part' : CredentialPart}
    (same : credentialFile place part = credentialFile other part') : place = other ∧ part = part' := by
  obtain ⟨dir, name⟩ := place
  obtain ⟨dir', name'⟩ := other
  obtain ⟨rfl, names⟩ := Prod.mk.inj same
  have chars := congrArg String.toList names
  rw [String.toList_append, String.toList_append] at chars
  have apart : ∀ first second : CredentialPart, first.suffix.toList <:+ second.suffix.toList → first = second := by
    intro first second
    cases first <;> cases second <;> decide
  have parts : part = part' := by
    rcases List.append_eq_append_iff.mp chars with ⟨more, -, longer⟩ | ⟨more, -, longer⟩
    · exact (apart part' part ⟨more, longer.symm⟩).symm
    · exact apart part part' ⟨more, longer.symm⟩
  subst parts
  exact ⟨Prod.ext rfl (String.toList_injective (List.append_cancel_right chars)), rfl⟩

@[simp] theorem credentialFileSame (place : Place) (part part' : CredentialPart) :
    credentialFile place part = credentialFile place part' ↔ part = part' :=
  ⟨fun same => (credentialFileInj same).2, congrArg (credentialFile place)⟩

structure Certified (s : KeyStore) (place : Place) (algorithm : String) (ca srv : KeyPair) : Prop where
  algorithms : ca.algorithm = algorithm ∧ srv.algorithm = algorithm
  caKey : s.files (credentialFile place .caKey) = some (.key ca)
  caCrt : s.files (credentialFile place .caCrt) = some (.certificate ca ca)
  srvKey : s.files (credentialFile place .srvKey) = some (.key srv)
  srvCsr : s.files (credentialFile place .srvCsr) = none
  srvCrt : s.files (credentialFile place .srvCrt) = some (.certificate ca srv)

theorem certifiedSame {s t : KeyStore} {place : Place} {algorithm : String} {ca srv : KeyPair}
    (same : ∀ part, t.files (credentialFile place part) = s.files (credentialFile place part))
    (certified : Certified s place algorithm ca srv) : Certified t place algorithm ca srv := by
  obtain ⟨algorithms, caKey, caCrt, srvKey, srvCsr, srvCrt⟩ := certified
  rw [← same] at caKey caCrt srvKey srvCsr srvCrt
  exact ⟨algorithms, caKey, caCrt, srvKey, srvCsr, srvCrt⟩

section Commands

variable (openssl : Openssl) {s : KeyStore} {place : Place}

theorem stepElsewhere (s : KeyStore) {command : KeyCommand} {part : CredentialPart}
    (other : credentialFile place part ∉ command.outs) :
    (keyStep openssl s command).files (credentialFile place part) = s.files (credentialFile place part) := by
  cases command with
  | openssl command => exact openssl.elsewhere _ command _ place part other
  | remove removed => exact Function.update_of_ne (List.ne_of_not_mem_cons other) _ _

theorem runElsewhere {commands : List KeyCommand} {part : CredentialPart}
    (other : ∀ command ∈ commands, credentialFile place part ∉ command.outs) (s : KeyStore) :
    (runCommands openssl commands s).files (credentialFile place part) = s.files (credentialFile place part) := by
  induction commands generalizing s with
  | nil => rfl
  | cons command rest ih =>
    obtain ⟨first, later⟩ := List.forall_mem_cons.mp other
    exact (ih later (keyStep openssl s command)).trans (stepElsewhere openssl s first)

def signCommands (place : Place) : List KeyCommand :=
  [.openssl (.x509Req (credentialFile place .srvCsr) (credentialFile place .srvCrt) (credentialFile place .caCrt)
      (credentialFile place .caKey)),
    .remove (credentialFile place .srvCsr)]

theorem signCertifies {algorithm : String} {ca srv : KeyPair} (algorithms : ca.algorithm = algorithm ∧ srv.algorithm = algorithm)
    (caKey : s.files (credentialFile place .caKey) = some (.key ca))
    (caCrt : s.files (credentialFile place .caCrt) = some (.certificate ca ca))
    (srvKey : s.files (credentialFile place .srvKey) = some (.key srv))
    (srvCsr : s.files (credentialFile place .srvCsr) = some (.request srv)) :
    Certified (runCommands openssl (signCommands place) s) place algorithm ca srv := by
  have signed := openssl.x509Req s.made _ (credentialFile place .srvCrt) _ _ _ srv ca ca srvCsr caCrt caKey
  have others : ∀ part, part ≠ .srvCrt → part ≠ .srvCsr →
      (runCommands openssl (signCommands place) s).files (credentialFile place part) = s.files (credentialFile place part) := by
    intro part crt csr
    refine runElsewhere openssl ?_ s
    simp [signCommands, KeyCommand.outs, OpensslCommand.outs, crt, csr]
  refine ⟨algorithms, (others .caKey nofun nofun).trans caKey, (others .caCrt nofun nofun).trans caCrt,
    (others .srvKey nofun nofun).trans srvKey, ?_, ?_⟩
  · exact Function.update_self _ _ _
  · refine Eq.trans (Function.update_of_ne ?_ _ _) signed
    simp

theorem signNothing (missing : s.files (credentialFile place .srvCsr) = none) :
    (runCommands openssl (signCommands place) s).files = s.files := by
  have same := openssl.x509ReqMissing s.made _ (credentialFile place .srvCrt) (credentialFile place .caCrt)
    (credentialFile place .caKey) _ missing
  change Function.update (openssl.run s.made _ s.files) (credentialFile place .srvCsr) none = s.files
  rw [same, ← missing, Function.update_eq_self]

end Commands

structure Group (openssl : Openssl) where
  place : Place
  algorithm : String
  known : Bool
  commands : List KeyCommand
  own : ∀ other, other ≠ place → ∀ part, ∀ command ∈ commands, credentialFile other part ∉ command.outs
  certifies : known = true → ∀ s, ∃ ca srv, Certified (runCommands openssl commands s) place algorithm ca srv
  keeps : known = false → ∀ s before ca srv, Certified s place before ca srv →
    Certified (runCommands openssl commands s) place before ca srv
  keepsNone : known = false → ∀ s, (∀ part, s.files (credentialFile place part) = none) →
    ∀ part, (runCommands openssl commands s).files (credentialFile place part) = none

theorem fileOther {place other : Place} (apart : other ≠ place) (part part' : CredentialPart) :
    credentialFile other part ≠ credentialFile place part' := fun same => apart (credentialFileInj same).1

theorem newkeyOwn (newkey : String) (place other : Place) (apart : other ≠ place) (part : CredentialPart) :
    ∀ command ∈ newkeyCommands newkey place, credentialFile other part ∉ command.outs := by
  simp [newkeyCommands, KeyCommand.outs, OpensslCommand.outs, fileOther apart]

theorem curveOwn (curve : String) (place other : Place) (apart : other ≠ place) (part : CredentialPart) :
    ∀ command ∈ curveCommands curve place, credentialFile other part ∉ command.outs := by
  simp [curveCommands, KeyCommand.outs, OpensslCommand.outs, fileOther apart]

section Groups

variable (openssl : Openssl) (place : Place)

theorem newkeyCertifies {newkey : String} (known : openssl.newkeyKnown newkey = true) (s : KeyStore) :
    ∃ ca srv, Certified (runCommands openssl (newkeyCommands newkey place) s) place newkey ca srv := by
  obtain ⟨ca, caNamed, caKey, caCrt⟩ := openssl.newkey s.made true newkey (credentialFile place .caKey)
    (credentialFile place .caCrt) s.files known (by simp)
  let s₁ := keyStep openssl s (.openssl (.reqNewkey true newkey (credentialFile place .caKey) (credentialFile place .caCrt)))
  obtain ⟨srv, srvNamed, srvKey, srvCsr⟩ := openssl.newkey s₁.made false newkey (credentialFile place .srvKey)
    (credentialFile place .srvCsr) s₁.files known (by simp)
  let second : KeyCommand := .openssl (.reqNewkey false newkey (credentialFile place .srvKey) (credentialFile place .srvCsr))
  have kept : ∀ part, credentialFile place part ∉ second.outs →
      (keyStep openssl s₁ second).files (credentialFile place part) = s₁.files (credentialFile place part) :=
    fun part => stepElsewhere openssl s₁
  refine ⟨ca, srv, signCertifies openssl ⟨caNamed, srvNamed⟩ ((kept .caKey ?_).trans caKey) ((kept .caCrt ?_).trans caCrt)
    srvKey srvCsr⟩ <;> simp [second, KeyCommand.outs, OpensslCommand.outs]

theorem newkeySame {newkey : String} (unknown : openssl.newkeyKnown newkey = false) {s : KeyStore}
    (missing : s.files (credentialFile place .srvCsr) = none) :
    (runCommands openssl (newkeyCommands newkey place) s).files = s.files := by
  have first := openssl.newkeyUnknown s.made true newkey (credentialFile place .caKey) (credentialFile place .caCrt) s.files unknown
  have second := openssl.newkeyUnknown (s.made + 1) false newkey (credentialFile place .srvKey) (credentialFile place .srvCsr)
    s.files unknown
  have unsigned := @signNothing openssl ⟨s.files, s.made + 1 + 1⟩ place missing
  change (runCommands openssl (signCommands place) ⟨openssl.run (s.made + 1) _ (openssl.run s.made _ s.files), _⟩).files = _
  rw [first, second]
  exact unsigned

theorem requestCertifies {algorithm : String} {ca srv : KeyPair} (s : KeyStore)
    (algorithms : ca.algorithm = algorithm ∧ srv.algorithm = algorithm)
    (caKey : s.files (credentialFile place .caKey) = some (.key ca))
    (caCrt : s.files (credentialFile place .caCrt) = some (.certificate ca ca))
    (srvKey : s.files (credentialFile place .srvKey) = some (.key srv)) :
    Certified (runCommands openssl (.openssl (.reqKey false (credentialFile place .srvKey) (credentialFile place .srvCsr)) ::
      signCommands place) s) place algorithm ca srv := by
  have srvCsr := openssl.reqKey s.made false _ (credentialFile place .srvCsr) _ srv srvKey
  let request : KeyCommand := .openssl (.reqKey false (credentialFile place .srvKey) (credentialFile place .srvCsr))
  have kept : ∀ part, credentialFile place part ∉ request.outs →
      (keyStep openssl s request).files (credentialFile place part) = s.files (credentialFile place part) :=
    fun part => stepElsewhere openssl s
  refine signCertifies openssl algorithms ((kept .caKey ?_).trans caKey) ((kept .caCrt ?_).trans caCrt)
    ((kept .srvKey ?_).trans srvKey) srvCsr <;> simp [request, KeyCommand.outs, OpensslCommand.outs]

theorem curveCertifies {curve : String} (known : openssl.curveKnown curve = true) (s : KeyStore) :
    ∃ ca srv, Certified (runCommands openssl (curveCommands curve place) s) place curve ca srv := by
  obtain ⟨ca, caNamed, caKey⟩ := openssl.genkey s.made curve (credentialFile place .caKey) s.files known
  let s₁ := keyStep openssl s (.openssl (.ecparamGenkey curve (credentialFile place .caKey)))
  have caCrt := openssl.reqKey s₁.made true _ (credentialFile place .caCrt) s₁.files ca caKey
  let certify : KeyCommand := .openssl (.reqKey true (credentialFile place .caKey) (credentialFile place .caCrt))
  let s₂ := keyStep openssl s₁ certify
  obtain ⟨srv, srvNamed, srvKey⟩ := openssl.genkey s₂.made curve (credentialFile place .srvKey) s₂.files known
  let genkey : KeyCommand := .openssl (.ecparamGenkey curve (credentialFile place .srvKey))
  have kept₁ : ∀ part, credentialFile place part ∉ certify.outs →
      s₂.files (credentialFile place part) = s₁.files (credentialFile place part) := fun part => stepElsewhere openssl s₁
  have kept₂ : ∀ part, credentialFile place part ∉ genkey.outs →
      (keyStep openssl s₂ genkey).files (credentialFile place part) = s₂.files (credentialFile place part) :=
    fun part => stepElsewhere openssl s₂
  refine ⟨ca, srv, requestCertifies openssl place _ ⟨caNamed, srvNamed⟩
    ((kept₂ .caKey ?_).trans ((kept₁ .caKey ?_).trans caKey)) ((kept₂ .caCrt ?_).trans caCrt) srvKey⟩ <;>
    simp [certify, genkey, KeyCommand.outs, OpensslCommand.outs]

theorem curveKeeps {curve : String} (unknown : openssl.curveKnown curve = false) (s : KeyStore) (before : String)
    (ca srv : KeyPair) (certified : Certified s place before ca srv) :
    Certified (runCommands openssl (curveCommands curve place) s) place before ca srv := by
  have first := openssl.genkeyUnknown s.made curve (credentialFile place .caKey) s.files unknown
  let s₁ : KeyStore := ⟨s.files, s.made + 1⟩
  have caCrt := openssl.reqKey s₁.made true _ (credentialFile place .caCrt) s₁.files ca certified.caKey
  let certify : KeyCommand := .openssl (.reqKey true (credentialFile place .caKey) (credentialFile place .caCrt))
  let s₂ := keyStep openssl s₁ certify
  have second := openssl.genkeyUnknown s₂.made curve (credentialFile place .srvKey) s₂.files unknown
  have kept : ∀ part, credentialFile place part ∉ certify.outs →
      s₂.files (credentialFile place part) = s₁.files (credentialFile place part) := fun part => stepElsewhere openssl s₁
  have requested := @requestCertifies openssl place before ca srv ⟨s₂.files, s₂.made + 1⟩ certified.algorithms
    ((kept .caKey (by simp [certify, KeyCommand.outs, OpensslCommand.outs])).trans certified.caKey) caCrt
    ((kept .srvKey (by simp [certify, KeyCommand.outs, OpensslCommand.outs])).trans certified.srvKey)
  change Certified (runCommands openssl (_ :: signCommands place) (keyStep openssl
    (keyStep openssl ⟨openssl.run s.made _ s.files, s.made + 1⟩ certify) _)) place before ca srv
  rw [first]
  rw [← second] at requested
  exact requested

theorem curveSame {curve : String} (unknown : openssl.curveKnown curve = false) {s : KeyStore}
    (none_ : ∀ part, s.files (credentialFile place part) = none) :
    (runCommands openssl (curveCommands curve place) s).files = s.files := by
  have first := openssl.genkeyUnknown s.made curve (credentialFile place .caKey) s.files unknown
  have second := openssl.reqKeyMissing (s.made + 1) true _ (credentialFile place .caCrt) s.files (none_ .caKey)
  have third := openssl.genkeyUnknown (s.made + 1 + 1) curve (credentialFile place .srvKey) s.files unknown
  have fourth := openssl.reqKeyMissing (s.made + 1 + 1 + 1) false _ (credentialFile place .srvCsr) s.files (none_ .srvKey)
  have unsigned := @signNothing openssl ⟨s.files, s.made + 1 + 1 + 1 + 1⟩ place (none_ .srvCsr)
  change (runCommands openssl (signCommands place) ⟨openssl.run (s.made + 1 + 1 + 1) _ (openssl.run (s.made + 1 + 1) _
    (openssl.run (s.made + 1) _ (openssl.run s.made _ s.files))), _⟩).files = _
  rw [first, second, third, fourth]
  exact unsigned

theorem newkeyKeeps {newkey : String} (unknown : openssl.newkeyKnown newkey = false) (s : KeyStore) (before : String)
    (ca srv : KeyPair) (certified : Certified s place before ca srv) :
    Certified (runCommands openssl (newkeyCommands newkey place) s) place before ca srv :=
  certifiedSame (fun _ => congrFun (newkeySame openssl place unknown certified.srvCsr) _) certified

theorem newkeyNone {newkey : String} (unknown : openssl.newkeyKnown newkey = false) (s : KeyStore)
    (none_ : ∀ part, s.files (credentialFile place part) = none) (part : CredentialPart) :
    (runCommands openssl (newkeyCommands newkey place) s).files (credentialFile place part) = none :=
  (congrFun (newkeySame openssl place unknown (none_ .srvCsr)) _).trans (none_ part)

theorem curveNone {curve : String} (unknown : openssl.curveKnown curve = false) (s : KeyStore)
    (none_ : ∀ part, s.files (credentialFile place part) = none) (part : CredentialPart) :
    (runCommands openssl (curveCommands curve place) s).files (credentialFile place part) = none :=
  (congrFun (curveSame openssl place unknown none_) _).trans (none_ part)

def newkeyGroup (newkey : String) : Group openssl where
  place := place
  algorithm := newkey
  known := openssl.newkeyKnown newkey
  commands := newkeyCommands newkey place
  own := newkeyOwn newkey place
  certifies := newkeyCertifies openssl place
  keeps := newkeyKeeps openssl place
  keepsNone := newkeyNone openssl place

def curveGroup (curve : String) : Group openssl where
  place := place
  algorithm := curve
  known := openssl.curveKnown curve
  commands := curveCommands curve place
  own := curveOwn curve place
  certifies := curveCertifies openssl place
  keeps := curveKeeps openssl place
  keepsNone := curveNone openssl place

end Groups

def keyGroups (openssl : Openssl) (classicSigs sigAlgs hybridSigAlgs : List String) : List (Group openssl) :=
  (classicSigs.map fun sig => if isRsa sig then newkeyGroup openssl (.classic, classicName sig) ("rsa:" ++ rsaBits sig)
    else curveGroup openssl (.classic, classicName sig) sig) ++
  (sigAlgs.map fun sig => newkeyGroup openssl (.pqc, sig) sig) ++
  hybridSigAlgs.map fun sig => newkeyGroup openssl (.hybrid, sig) sig

theorem generateGroups (openssl : Openssl) (classicSigs sigAlgs hybridSigAlgs : List String) :
    generateKeys openssl classicSigs sigAlgs hybridSigAlgs =
      (keyGroups openssl classicSigs sigAlgs hybridSigAlgs).foldl (fun s group => runCommands openssl group.commands s)
        ⟨fun _ => none, 0⟩ := by
  have commands : classicKeygen classicSigs ++ pqcKeygen sigAlgs ++ hybridPqcKeygen hybridSigAlgs =
      (keyGroups openssl classicSigs sigAlgs hybridSigAlgs).flatMap Group.commands := by
    rw [keyGroups, List.flatMap_append, List.flatMap_append, List.flatMap_map, List.flatMap_map, List.flatMap_map]
    congr 2
    refine List.flatMap_congr fun sig _ => ?_
    split <;> rfl
  rw [generateKeys, commands, runCommands, List.foldl_flatMap]
  rfl

def lastAlgorithm {openssl : Openssl} (groups : List (Group openssl)) : Place → Option String :=
  recordAll (fun _ => none) ((groups.filter Group.known).map fun group => (group.place, group.algorithm))

def Generated {openssl : Openssl} (s : KeyStore) (groups : List (Group openssl)) : Prop :=
  ∀ place, match lastAlgorithm groups place with
    | some algorithm => ∃ ca srv, Certified s place algorithm ca srv
    | none => ∀ part, s.files (credentialFile place part) = none

section Generate

variable {openssl : Openssl} {s : KeyStore} {groups : List (Group openssl)}

theorem groupElsewhere (group : Group openssl) (s : KeyStore) {place : Place} (other : place ≠ group.place)
    (part : CredentialPart) :
    (runCommands openssl group.commands s).files (credentialFile place part) = s.files (credentialFile place part) :=
  runElsewhere openssl (group.own place other part) s

theorem certifiedElsewhere {group : Group openssl} {place : Place} (other : place ≠ group.place) {algorithm : String}
    {ca srv : KeyPair} (certified : Certified s place algorithm ca srv) :
    Certified (runCommands openssl group.commands s) place algorithm ca srv :=
  certifiedSame (groupElsewhere group s other) certified

theorem generatedKnown (generated : Generated s groups) (group : Group openssl) (known : group.known = true) :
    Generated (runCommands openssl group.commands s) (groups ++ [group]) := by
  intro place
  rw [lastAlgorithm, List.filter_append, List.filter_cons_of_pos known, List.filter_nil, List.map_append,
    List.map_singleton, Recording.recordAllNext]
  by_cases own : place = group.place
  · subst own
    rw [Recording.recordOwn (group.place, group.algorithm)]
    exact group.certifies known s
  · have before := generated place
    rw [Recording.recordOther own]
    rw [lastAlgorithm] at before
    cases last : recordAll (fun _ => none) ((groups.filter Group.known).map fun group => (group.place, group.algorithm)) place with
    | some algorithm =>
      rw [last] at before
      obtain ⟨ca, srv, certified⟩ := before
      exact ⟨ca, srv, certifiedElsewhere own certified⟩
    | none =>
      rw [last] at before
      exact fun part => (groupElsewhere group s own part).trans (before part)

theorem generatedUnknown (generated : Generated s groups) (group : Group openssl) (unknown : group.known = false) :
    Generated (runCommands openssl group.commands s) (groups ++ [group]) := by
  intro place
  have before := generated place
  have same : lastAlgorithm (groups ++ [group]) = lastAlgorithm groups := by
    rw [lastAlgorithm, List.filter_append, List.filter_cons_of_neg (by simp [unknown]), List.filter_nil, List.append_nil]
    rfl
  rw [same]
  cases last : lastAlgorithm groups place with
  | some algorithm =>
    rw [last] at before
    obtain ⟨ca, srv, certified⟩ := before
    refine ⟨ca, srv, ?_⟩
    by_cases own : place = group.place
    · subst own
      exact group.keeps unknown s algorithm ca srv certified
    · exact certifiedElsewhere own certified
  | none =>
    rw [last] at before
    by_cases own : place = group.place
    · subst own
      exact group.keepsNone unknown s before
    · exact fun part => (groupElsewhere group s own part).trans (before part)

theorem generatedAll (groups : List (Group openssl)) :
    Generated (groups.foldl (fun s group => runCommands openssl group.commands s) ⟨fun _ => none, 0⟩) groups := by
  induction groups using List.reverseRecOn with
  | nil => exact fun place part => rfl
  | append_singleton groups group ih =>
    rw [List.foldl_concat]
    cases known : group.known with
    | true => exact generatedKnown ih group known
    | false => exact generatedUnknown ih group known

end Generate

def servedPlace (test : Combination) : Place :=
  match test.testType with
  | .classic => (.classic, test.inner)
  | type => (type, sigName test.outer)

def certFile (test : Combination) : TestType × String := credentialFile (servedPlace test) .srvCrt
def keyFile (test : Combination) : TestType × String := credentialFile (servedPlace test) .srvKey

/-- `-CAfile` of the client, which is the certificate of the server itself in all but the PQC tests. -/
def caFile (test : Combination) : TestType × String :=
  match test.testType with
  | .pqc => credentialFile (servedPlace test) .caCrt
  | _ => credentialFile (servedPlace test) .srvCrt

def trusted (test : Combination) (ca srv : KeyPair) : Credential :=
  match test.testType with
  | .pqc => .certificate ca ca
  | _ => .certificate ca srv

/-- The server has a key of the algorithm and a certificate for it, and the client what it verifies it by. -/
def Serves (s : KeyStore) (test : Combination) (algorithm : String) : Prop :=
  ∃ ca srv : KeyPair, srv.algorithm = algorithm ∧ s.files (keyFile test) = some (.key srv) ∧
    s.files (certFile test) = some (.certificate ca srv) ∧ s.files (caFile test) = some (trusted test ca srv)

def UnderTest (classicSigs : List String) (test : Combination) (algorithm : String) : Prop :=
  match test.testType with
  | .classic => ∃ sig ∈ classicSigs, classicName sig = test.inner ∧ classicAlgorithm sig = algorithm
  | _ => algorithm = test.outer

def classicKnown (openssl : Openssl) (sig : String) : Bool :=
  if isRsa sig then openssl.newkeyKnown ("rsa:" ++ rsaBits sig) else openssl.curveKnown sig

def SpeltAlike (openssl : Openssl) (classicSigs : List String) (test : Combination) : Prop :=
  match test.testType with
  | .classic => ∃ sig ∈ classicSigs, classicName sig = test.inner ∧ classicKnown openssl sig = true
  | _ => sigName test.outer = test.outer ∧ openssl.newkeyKnown test.outer = true

theorem certifiedServes {s : KeyStore} {test : Combination} {algorithm : String} {ca srv : KeyPair}
    (certified : Certified s (servedPlace test) algorithm ca srv) : Serves s test algorithm := by
  refine ⟨ca, srv, certified.algorithms.2, certified.srvKey, certified.srvCrt, ?_⟩
  obtain ⟨runNum, testType, outer, inner⟩ := test
  cases testType with
  | pqc => exact certified.caCrt
  | hybrid => exact certified.srvCrt
  | classic => exact certified.srvCrt

section Served

variable {openssl : Openssl} {classicSigs sigAlgs hybridSigAlgs : List String} {place : Place} {test : Combination}

theorem groupListed {group : Group openssl} (member : group ∈ keyGroups openssl classicSigs sigAlgs hybridSigAlgs) :
    (∃ sig ∈ classicSigs, group.place = (.classic, classicName sig) ∧ group.algorithm = classicAlgorithm sig ∧
      group.known = classicKnown openssl sig) ∨
    (∃ sig ∈ sigAlgs, group.place = (.pqc, sig) ∧ group.algorithm = sig ∧ group.known = openssl.newkeyKnown sig) ∨
    (∃ sig ∈ hybridSigAlgs, group.place = (.hybrid, sig) ∧ group.algorithm = sig ∧
      group.known = openssl.newkeyKnown sig) := by
  rcases List.mem_append.mp member with early | hybrid
  · rcases List.mem_append.mp early with classic | pqc
    · obtain ⟨sig, listed, rfl⟩ := List.mem_map.mp classic
      refine .inl ⟨sig, listed, ?_⟩
      unfold classicAlgorithm classicKnown
      split <;> exact ⟨rfl, rfl, rfl⟩
    · obtain ⟨sig, listed, rfl⟩ := List.mem_map.mp pqc
      exact .inr (.inl ⟨sig, listed, rfl, rfl, rfl⟩)
  · obtain ⟨sig, listed, rfl⟩ := List.mem_map.mp hybrid
    exact .inr (.inr ⟨sig, listed, rfl, rfl, rfl⟩)

theorem placeGenerated
    (written : ∃ group ∈ keyGroups openssl classicSigs sigAlgs hybridSigAlgs, group.place = place ∧ group.known = true) :
    ∃ group ∈ keyGroups openssl classicSigs sigAlgs hybridSigAlgs, group.place = place ∧ group.known = true ∧
      ∃ ca srv, Certified (generateKeys openssl classicSigs sigAlgs hybridSigAlgs) place group.algorithm ca srv := by
  obtain ⟨group, member, rfl, known⟩ := written
  have entry : ∃ entry ∈ ((keyGroups openssl classicSigs sigAlgs hybridSigAlgs).filter Group.known).map
      fun group => (group.place, group.algorithm), entry.1 = group.place :=
    ⟨_, List.mem_map_of_mem (List.mem_filter.mpr ⟨member, known⟩), rfl⟩
  obtain ⟨_, found, named, last⟩ := @Recording.recordAllWritten _ _ _ (fun _ => none) _ _ entry
  obtain ⟨other, listed, rfl⟩ := List.mem_map.mp found
  obtain ⟨listed, otherKnown⟩ := List.mem_filter.mp listed
  have generated := generatedAll (keyGroups openssl classicSigs sigAlgs hybridSigAlgs) group.place
  rw [lastAlgorithm, last, ← generateGroups] at generated
  exact ⟨other, listed, named, otherKnown, generated⟩

theorem placeMissing
    (unwritten : ∀ group ∈ keyGroups openssl classicSigs sigAlgs hybridSigAlgs, group.place = place → group.known ≠ true)
    (part : CredentialPart) :
    (generateKeys openssl classicSigs sigAlgs hybridSigAlgs).files (credentialFile place part) = none := by
  have none_ : lastAlgorithm (keyGroups openssl classicSigs sigAlgs hybridSigAlgs) place = none := by
    refine Recording.recordAllUnwritten fun entry member named => ?_
    obtain ⟨group, listed, rfl⟩ := List.mem_map.mp member
    obtain ⟨listed, known⟩ := List.mem_filter.mp listed
    exact unwritten group listed named known
  have generated := generatedAll (keyGroups openssl classicSigs sigAlgs hybridSigAlgs) place
  rw [none_, ← generateGroups] at generated
  exact generated part

theorem servesListed {algorithm : String}
    (serves : Serves (generateKeys openssl classicSigs sigAlgs hybridSigAlgs) test algorithm) :
    ∃ group ∈ keyGroups openssl classicSigs sigAlgs hybridSigAlgs, group.place = servedPlace test ∧ group.known = true ∧
      group.algorithm = algorithm := by
  obtain ⟨ca, srv, same, key, -⟩ := serves
  by_cases written : ∃ group ∈ keyGroups openssl classicSigs sigAlgs hybridSigAlgs,
      group.place = servedPlace test ∧ group.known = true
  · obtain ⟨group, member, named, known, ca', srv', certified⟩ := placeGenerated written
    have pair := key.symm.trans certified.srvKey
    injection pair with content
    injection content with pair
    exact ⟨group, member, named, known, by rw [← same, pair, certified.algorithms.2]⟩
  · have missing := placeMissing (fun group member named known => written ⟨group, member, named, known⟩) .srvKey
    cases key.symm.trans missing

theorem combinationOuter {lists : Lists} (listed : test ∈ combinations lists) :
    match test.testType with
    | .pqc => test.outer ∈ lists.sigAlgs
    | .hybrid => test.outer ∈ lists.hybridSigAlgs
    | .classic => test.outer ∈ lists.ciphers := by
  have outerOf : ∀ {type : TestType} {runNum : Nat} {outers inners : List String},
      (test ∈ outers.flatMap fun first => inners.map fun second => (⟨runNum, type, first, second⟩ : Combination)) →
        test.testType = type ∧ test.outer ∈ outers := by
    intro type runNum outers inners member
    obtain ⟨first, inside, member⟩ := List.mem_flatMap.mp member
    obtain ⟨second, -, rfl⟩ := List.mem_map.mp member
    exact ⟨rfl, inside⟩
  obtain ⟨runNum, -, member⟩ := List.mem_flatMap.mp listed
  rcases List.mem_append.mp member with early | classic
  · rcases List.mem_append.mp early with pqc | hybrid
    · obtain ⟨type, inside⟩ := outerOf pqc
      rw [type]
      exact inside
    · obtain ⟨type, inside⟩ := outerOf hybrid
      rw [type]
      exact inside
  · obtain ⟨type, inside⟩ := outerOf classic
    rw [type]
    exact inside

theorem spelledPlace {lists : Lists} (listed : test ∈ combinations lists) (spelled : SpeltAlike openssl classicSigs test) :
    ∃ group ∈ keyGroups openssl classicSigs lists.sigAlgs lists.hybridSigAlgs,
      group.place = servedPlace test ∧ group.known = true := by
  have own := combinationOuter listed
  obtain ⟨runNum, testType, outer, inner⟩ := test
  cases testType with
  | classic =>
    obtain ⟨sig, inside, named, known⟩ := spelled
    refine ⟨_, List.mem_append_left _ (List.mem_append_left _ (List.mem_map_of_mem inside)), ?_⟩
    unfold classicKnown at known
    change _ = ((.classic, inner) : Place) ∧ _
    rw [← show classicName sig = inner from named]
    split at known
    · rw [if_pos ‹_›]
      exact ⟨rfl, known⟩
    · rw [if_neg ‹_›]
      exact ⟨rfl, known⟩
  | pqc =>
    obtain ⟨same, known⟩ := spelled
    refine ⟨newkeyGroup openssl (.pqc, outer) outer,
      List.mem_append_left _ (List.mem_append_right _ (List.mem_map_of_mem own)), ?_, known⟩
    exact congrArg (Prod.mk TestType.pqc) (Eq.symm same)
  | hybrid =>
    obtain ⟨same, known⟩ := spelled
    refine ⟨newkeyGroup openssl (.hybrid, outer) outer, List.mem_append_right _ (List.mem_map_of_mem own), ?_, known⟩
    exact congrArg (Prod.mk TestType.hybrid) (Eq.symm same)

theorem spelledTested {group : Group openssl} (member : group ∈ keyGroups openssl classicSigs sigAlgs hybridSigAlgs)
    (place : group.place = servedPlace test) (spelled : SpeltAlike openssl classicSigs test) :
    UnderTest classicSigs test group.algorithm := by
  obtain ⟨runNum, testType, outer, inner⟩ := test
  cases testType with
  | classic =>
    rcases groupListed member with ⟨sig, inside, same, algorithm, -⟩ | ⟨sig, -, same, -⟩ | ⟨sig, -, same, -⟩
    · exact ⟨sig, inside, congrArg Prod.snd (same.symm.trans place), algorithm.symm⟩
    · cases same.symm.trans place
    · cases same.symm.trans place
  | pqc =>
    rcases groupListed member with ⟨sig, -, same, -⟩ | ⟨sig, -, same, algorithm, -⟩ | ⟨sig, -, same, -⟩
    · cases same.symm.trans place
    · exact (algorithm.trans (congrArg Prod.snd (same.symm.trans place))).trans spelled.1
    · cases same.symm.trans place
  | hybrid =>
    rcases groupListed member with ⟨sig, -, same, -⟩ | ⟨sig, -, same, -⟩ | ⟨sig, -, same, algorithm, -⟩
    · cases same.symm.trans place
    · cases same.symm.trans place
    · exact (algorithm.trans (congrArg Prod.snd (same.symm.trans place))).trans spelled.1

theorem ownSpelled {type : TestType} {sig outer algorithm : String} {known : Bool} (place : (type, sig) = (type, sigName outer))
    (named : algorithm = sig) (tested : algorithm = outer) (makes : known = openssl.newkeyKnown sig) (isKnown : known = true) :
    sigName outer = outer ∧ openssl.newkeyKnown outer = true := by
  have same : sig = sigName outer := congrArg Prod.snd place
  subst tested
  subst named
  exact ⟨same.symm, makes.symm.trans isKnown⟩

theorem listedSpelled {group : Group openssl} (member : group ∈ keyGroups openssl classicSigs sigAlgs hybridSigAlgs)
    (place : group.place = servedPlace test) (known : group.known = true) (tested : UnderTest classicSigs test group.algorithm) :
    SpeltAlike openssl classicSigs test := by
  obtain ⟨runNum, testType, outer, inner⟩ := test
  cases testType with
  | classic =>
    rcases groupListed member with ⟨sig, listed, same, -, makes⟩ | ⟨sig, -, same, -⟩ | ⟨sig, -, same, -⟩
    · exact ⟨sig, listed, congrArg Prod.snd (same.symm.trans place), makes.symm.trans known⟩
    · cases same.symm.trans place
    · cases same.symm.trans place
  | pqc =>
    rcases groupListed member with ⟨sig, -, same, -⟩ | ⟨sig, -, same, algorithm, makes⟩ | ⟨sig, -, same, -⟩
    · cases same.symm.trans place
    · exact ownSpelled (same.symm.trans place) algorithm tested makes known
    · cases same.symm.trans place
  | hybrid =>
    rcases groupListed member with ⟨sig, -, same, -⟩ | ⟨sig, -, same, -⟩ | ⟨sig, -, same, algorithm, makes⟩
    · cases same.symm.trans place
    · cases same.symm.trans place
    · exact ownSpelled (same.symm.trans place) algorithm tested makes known

theorem servesIff {lists : Lists} (listed : test ∈ combinations lists) :
    (∃ algorithm, UnderTest classicSigs test algorithm ∧
      Serves (generateKeys openssl classicSigs lists.sigAlgs lists.hybridSigAlgs) test algorithm) ↔
        SpeltAlike openssl classicSigs test := by
  constructor
  · rintro ⟨algorithm, tested, serves⟩
    obtain ⟨group, member, place, known, same⟩ := servesListed serves
    exact listedSpelled member place known (same ▸ tested)
  · intro spelled
    obtain ⟨group, member, place, -, ca, srv, certified⟩ := placeGenerated (spelledPlace listed spelled)
    exact ⟨group.algorithm, spelledTested member place spelled, certifiedServes certified⟩

end Served

namespace PlainOpenssl

def write (files : KeyFiles) (file : TestType × String) (content : Credential) : KeyFiles :=
  Function.update files file (some content)

def newkeyKnown (newkey : String) : Bool := newkey = "rsa:2048" || newkey = "mldsa44"

def curveKnown (curve : String) : Bool := curve = "prime256v1"

def run (number : Nat) : OpensslCommand → KeyFiles → KeyFiles
  | .ecparamGenkey curve out, files => if curveKnown curve then write files out (.key ⟨curve, number⟩) else files
  | .reqNewkey x509 newkey keyout out, files =>
    if newkeyKnown newkey then write (write files keyout (.key ⟨newkey, number⟩)) out (reqOut x509 ⟨newkey, number⟩) else files
  | .reqKey x509 key out, files =>
    match files key with
    | some (.key pair) => write files out (reqOut x509 pair)
    | _ => files
  | .x509Req request out ca caKey, files =>
    match files request, files ca, files caKey with
    | some (.request subject), some (.certificate _ issuer), some (.key pair) =>
      -- the key has to be that of the certificate
      if issuer = pair then write files out (.certificate pair subject) else files
    | _, _, _ => files

theorem writeElsewhere {files after : KeyFiles} {out file : TestType × String} (other : file ≠ out)
    (written : after = files ∨ ∃ content, after = write files out content) : after file = files file := by
  rcases written with rfl | ⟨content, rfl⟩
  · rfl
  · exact Function.update_of_ne other _ _

theorem runElsewhere (number : Nat) (command : OpensslCommand) (files : KeyFiles) (place : Place) (part : CredentialPart)
    (other : credentialFile place part ∉ command.outs) :
    run number command files (credentialFile place part) = files (credentialFile place part) := by
  cases command with
  | ecparamGenkey curve out =>
    refine writeElsewhere (List.ne_of_not_mem_cons other) ?_
    simp only [run]
    split
    · exact .inr ⟨_, rfl⟩
    · exact .inl rfl
  | reqNewkey x509 newkey keyout out =>
    obtain ⟨first, second⟩ := List.ne_and_not_mem_of_not_mem_cons other
    simp only [run]
    split
    · exact (Function.update_of_ne (List.ne_of_not_mem_cons second) _ _).trans (Function.update_of_ne first _ _)
    · rfl
  | reqKey x509 key out =>
    refine writeElsewhere (List.ne_of_not_mem_cons other) ?_
    simp only [run]
    split
    · exact .inr ⟨_, rfl⟩
    · exact .inl rfl
  | x509Req request out ca caKey =>
    refine writeElsewhere (List.ne_of_not_mem_cons other) ?_
    simp only [run]
    split
    · split
      · exact .inr ⟨_, rfl⟩
      · exact .inl rfl
    · exact .inl rfl

theorem runX509Req (number : Nat) (request out ca caKey : TestType × String) (files : KeyFiles) (subject issuer pair : KeyPair)
    (asked : files request = some (.request subject)) (authority : files ca = some (.certificate issuer pair))
    (key : files caKey = some (.key pair)) :
    run number (.x509Req request out ca caKey) files out = some (.certificate pair subject) := by
  simp [run, asked, authority, key, write]

theorem runNewkey (number : Nat) (x509 : Bool) (newkey : String) (keyout out : TestType × String) (files : KeyFiles)
    (known : newkeyKnown newkey = true) (apart : keyout ≠ out) : ∃ pair : KeyPair, pair.algorithm = newkey ∧
      run number (.reqNewkey x509 newkey keyout out) files keyout = some (.key pair) ∧
      run number (.reqNewkey x509 newkey keyout out) files out = some (reqOut x509 pair) := by
  refine ⟨⟨newkey, number⟩, rfl, ?_, ?_⟩
  · simp [run, known, write, Function.update_of_ne apart]
  · simp [run, known, write]

theorem runGenkey (number : Nat) (curve : String) (out : TestType × String) (files : KeyFiles)
    (known : curveKnown curve = true) :
    ∃ pair : KeyPair, pair.algorithm = curve ∧ run number (.ecparamGenkey curve out) files out = some (.key pair) :=
  ⟨⟨curve, number⟩, rfl, by simp [run, known, write]⟩

theorem runGenkeyUnknown (number : Nat) (curve : String) (out : TestType × String) (files : KeyFiles)
    (unknown : curveKnown curve = false) : run number (.ecparamGenkey curve out) files = files := by
  simp [run, unknown]

theorem runNewkeyUnknown (number : Nat) (x509 : Bool) (newkey : String) (keyout out : TestType × String) (files : KeyFiles)
    (unknown : newkeyKnown newkey = false) : run number (.reqNewkey x509 newkey keyout out) files = files := by
  simp [run, unknown]

theorem runReqKey (number : Nat) (x509 : Bool) (key out : TestType × String) (files : KeyFiles) (pair : KeyPair)
    (present : files key = some (.key pair)) : run number (.reqKey x509 key out) files out = some (reqOut x509 pair) := by
  simp [run, present, write]

theorem runReqKeyMissing (number : Nat) (x509 : Bool) (key out : TestType × String) (files : KeyFiles)
    (missing : files key = none) : run number (.reqKey x509 key out) files = files := by
  simp [run, missing]

theorem runX509ReqMissing (number : Nat) (request out ca caKey : TestType × String) (files : KeyFiles)
    (missing : files request = none) : run number (.x509Req request out ca caKey) files = files := by
  simp [run, missing]

end PlainOpenssl

def plainOpenssl : Openssl where
  run := PlainOpenssl.run
  newkeyKnown := PlainOpenssl.newkeyKnown
  curveKnown := PlainOpenssl.curveKnown
  elsewhere := PlainOpenssl.runElsewhere
  genkey := PlainOpenssl.runGenkey
  genkeyUnknown := PlainOpenssl.runGenkeyUnknown
  newkey := PlainOpenssl.runNewkey
  newkeyUnknown := PlainOpenssl.runNewkeyUnknown
  reqKey := PlainOpenssl.runReqKey
  reqKeyMissing := PlainOpenssl.runReqKeyMissing
  x509Req := PlainOpenssl.runX509Req
  x509ReqMissing := PlainOpenssl.runX509ReqMissing

end Armor.Tls
