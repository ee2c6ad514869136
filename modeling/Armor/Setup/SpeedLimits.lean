import Armor.Lib.Numerals
import Armor.Lib.Script
import Armor.Lib.Text
import Armor.Setup.AlgorithmLists
import Armor.Tls.MachineId

/-! `modify_openssl_src` of `source_code_modifier.sh`: the value written over the defines of `MAX_KEM_NUM` and
`MAX_SIG_NUM` in `speed.c`, from the user, from the count of `get_algorithms.py` or from the fallback. -/
namespace Armor.Setup.SpeedLimits
open AlgorithmLists (Count)
open Decimal (isNumber)
open Numerals (arithmetic cLiteral operand wrap)
open Script (Stop)
open Text (contains startsWith)
open Tls.MachineId (getUserYesNo)

inductive Limit where
  | kem
  | sig
  deriving DecidableEq, Repr

/-- `speed.c`: a define of either limit, with what follows its name and a space on the line, or other text. -/
inductive Part where
  | text (s : String)
  | define (limit : Limit) (rest : String)
  deriving DecidableEq, Repr

abbrev SpeedC := List Part

def digits (rest : String) : List Char := rest.toList.takeWhile Char.isDigit

def Part.isDefine (limit : Limit) : Part → Bool
  | .text _ => false
  | .define limit' _ => limit' = limit

/-- `grep -q "#define NAME"` -/
def hasDefine (c : SpeedC) (limit : Limit) : Bool := c.any (Part.isDefine limit)

def Part.number (limit : Limit) : Part → Option String
  | .text _ => none
  | .define limit' rest => if limit' = limit ∧ digits rest ≠ [] then some (String.ofList (digits rest)) else none

/-- `grep -oP '(?<=#define NAME )\d+'` -/
def defaultMaxNum (c : SpeedC) (limit : Limit) : List String := c.filterMap (Part.number limit)

/-- `s/#define NAME [0-9]\+/#define NAME $new_value/` -/
def Part.sed (newValue : String) (limit : Limit) : Part → Part
  | .text s => .text s
  | .define limit' rest =>
    if limit' = limit ∧ digits rest ≠ [] then
      .define limit' (newValue ++ String.ofList (rest.toList.dropWhile Char.isDigit))
    else .define limit' rest

/-- `grep -q "#define NAME $new_value"` -/
def Part.shows (newValue : String) (limit : Limit) : Part → Bool
  | .text _ => false
  | .define limit' rest => limit' = limit && startsWith rest newValue

def setNewSpeedValues (c : SpeedC) (newValue : String) : Except Stop SpeedC :=
  let c := (c.map (Part.sed newValue .sig)).map (Part.sed newValue .kem)
  if c.any (Part.shows newValue .sig) ∧ c.any (Part.shows newValue .kem) then .ok c
  else .error (.error
    "[ERROR] - Modifying the MAX_KEM_NUM/MAX_SIG_NUM values in the speed.c file failed, please verify the setup")

section Arguments

structure Settings where
  userDefinedSpeedFlag : Option Bool
  userDefinedSpeedValue : Option String

/-- `cut -d '=' -f 2` of a line with a `=`. -/
def cutSecond (arg : String) : String :=
  String.ofList (((arg.toList.dropWhile (· ≠ '=')).drop 1).takeWhile (· ≠ '='))

def parseArg (s : Settings) (arg : String) : Except Stop Settings :=
  if startsWith arg "--user-defined-flag=" then
    if cutSecond arg = "0" then .ok { s with userDefinedSpeedFlag := some false }
    else if cutSecond arg = "1" then .ok { s with userDefinedSpeedFlag := some true }
    else .error (.error "[ERROR] - Invalid value for --user-defined-flag, must be 0 or 1")
  else if startsWith arg "--user-defined-speed-value=" then
    if isNumber (cutSecond arg) then .ok { s with userDefinedSpeedValue := some (cutSecond arg) }
    else .error (.error "[ERROR] - Invalid value for --user-defined-speed-value, must be a positive integer")
  else .error (.error ("[ERROR] - Unknown option passed to the utility script: " ++ arg))

/-- The flag and the value of `modify_openssl_src`, both of which are required. -/
def parseArgs (args : List String) : Except Stop (Bool × String) :=
  if contains (" ".intercalate args) "--help" then .error .help
  else do
    let s ← args.foldlM parseArg ⟨none, none⟩
    match s.userDefinedSpeedFlag, s.userDefinedSpeedValue with
    | some flag, some number =>
      if flag ∧ operand number = some 0 then .error (.error
        "[ERROR] - The new speed value for the MAX_KEM_NUM/MAX_SIG_NUM variables can not be 0")
      else .ok (flag, number)
    | _, _ => .error (.error "[ERROR] - Missing required command line arguments for the modify_openssl_src function")

end Arguments

section Modify

def emergencyPadding : Int := 100

/-- `$((a > b ? a : b))` of the two defaults. -/
def highestDefaultValue (kem sig : String) : Option Int := do
  let kem ← arithmetic kem
  let sig ← arithmetic sig
  some (if kem > sig then kem else sig)

def fallbackValue (highest : Int) : Int := if highest > 200 then wrap (highest + emergencyPadding) else 200

/-- `[ "$new_value" -lt "$highest_default_value" ]` -/
def below (newValue : String) (highest : Int) : Bool :=
  match operand newValue with
  | some n => n < highest
  | none => false

def useFallback (highest : Int) (answers : List String) : Except Stop String :=
  match getUserYesNo answers with
  | none => .error .waits
  | some (true, _) => .ok (toString (fallbackValue highest))
  | some (false, _) => .error (.error "Exiting setup script...")

def newValue (settings : Bool × String) (highest : Int) (count : Count) (answers : List String) : Except Stop String :=
  if settings.1 then
    if below settings.2 highest then useFallback highest answers else .ok settings.2
  else match count with
    | .counted algorithms => .ok (toString (wrap (highest + wrap algorithms)))
    | .noNumber => .error (.error
        "[ERROR] - Failed to extract a valid number of algorithms from the Python script output.")
    | .fileNotFound => .error (.error
        "[ERROR] - The Python script that extracts the number of algorithms could not find the required files.")
    | .parseFailed => useFallback highest answers
    | .other => .error (.error "[ERROR] - A wider error occurred within the Python get_algorithms utility script.")

inductive Return where
  | unmodified
  | modified (speedC : SpeedC) (newValue : String)
  deriving DecidableEq

def modifyOpensslSrc (settings : Bool × String) (speedC : Option SpeedC) (count : Count) (answers : List String) :
    Except Stop Return :=
  match speedC.filter fun c => hasDefine c .sig && hasDefine c .kem with
  | none =>
    match getUserYesNo answers with
    | none => .error .waits
    | some (true, _) => .ok .unmodified
    | some (false, _) => .error (.error "Exiting setup script...")
  | some c =>
    match defaultMaxNum c .kem, defaultMaxNum c .sig with
    | [kem], [sig] =>
      match highestDefaultValue kem sig with
      | none => .error (.error "value too great for base")
      | some highest => do
        let newValue ← newValue settings highest count answers
        let c ← setNewSpeedValues c newValue
        .ok (.modified c newValue)
    | _, _ => .error (.error "syntax error in expression")

end Modify

def HasDefault (c : SpeedC) (limit : Limit) (number : Nat) : Prop :=
  ∃ rest : String, c.filter (Part.isDefine limit) = [.define limit (number.repr ++ rest)] ∧
    ∀ first ∈ rest.toList.head?, first.isDigit = false

/-- What a C compiler reads for the limit. -/
def limitValue (c : SpeedC) (limit : Limit) : Option Nat :=
  match defaultMaxNum c limit with
  | [number] => cLiteral number
  | _ => none

def highestOf (kem sig : Nat) : Int := if wrap kem > wrap sig then wrap kem else wrap sig

def FallsBack (settings : Bool × String) (count : Count) (kem sig : Nat) : Prop :=
  if settings.1 then below settings.2 (highestOf kem sig) = true else count = .parseFailed

instance (settings : Bool × String) (count : Count) (kem sig : Nat) :
    Decidable (FallsBack settings count kem sig) := by
  unfold FallsBack
  infer_instance

def LargeEnough (settings : Bool × String) (count : Count) (kem sig : Nat) (c : SpeedC) : Prop :=
  ∃ n, limitValue c .kem = some n ∧ limitValue c .sig = some n ∧ max kem sig ≤ n ∧
    (∀ algorithms, settings.1 = false → count = .counted algorithms → max kem sig + algorithms ≤ n) ∧
    (FallsBack settings count kem sig → max kem sig < n)

/-- The larger default is not the fallback value, a value of the user is as large for the C compiler as for the
shell, and sums stay below 2^63. -/
def Ample (settings : Bool × String) (count : Count) (kem sig : Nat) : Prop :=
  if FallsBack settings count kem sig then max kem sig ≠ 200 ∧ max kem sig + 100 < 2 ^ 63
  else if settings.1 then ∃ n, cLiteral settings.2 = some n ∧ max kem sig ≤ n
  else ∀ algorithms, count = .counted algorithms → max kem sig + algorithms < 2 ^ 63

section Texts

def Shows (c : SpeedC) (limit : Limit) (rest : String) : Prop :=
  c.filter (Part.isDefine limit) = [.define limit rest]

theorem digitsAppend {number rest : String} (digit : ∀ c ∈ number.toList, c.isDigit = true)
    (stops : ∀ first ∈ rest.toList.head?, first.isDigit = false) :
    digits (number ++ rest) = number.toList ∧ (number ++ rest).toList.dropWhile Char.isDigit = rest.toList := by
  have nothing : rest.toList.takeWhile Char.isDigit = [] ∧ rest.toList.dropWhile Char.isDigit = rest.toList := by
    cases letters : rest.toList with
    | nil => exact ⟨rfl, rfl⟩
    | cons first more =>
      have other := stops first (by rw [letters]; rfl)
      have no : ¬ first.isDigit = true := ne_true_of_eq_false other
      exact ⟨List.takeWhile_cons_of_neg no, List.dropWhile_cons_of_neg no⟩
  rw [digits, String.toList_append, List.takeWhile_append_of_pos digit, List.dropWhile_append_of_pos digit, nothing.1,
    nothing.2, List.append_nil]
  exact ⟨rfl, rfl⟩

theorem reprDigits (n : Nat) : n.repr.toList ≠ [] ∧ ∀ c ∈ n.repr.toList, c.isDigit = true := by
  rw [Nat.toList_repr]
  exact ⟨Nat.toDigits_ne_nil, fun _ member => Nat.isDigit_of_mem_toDigits (by decide) (by decide) member⟩

theorem defaultOf {c : SpeedC} {limit : Limit} {rest : String} (shows : Shows c limit rest) :
    defaultMaxNum c limit = if digits rest ≠ [] then [String.ofList (digits rest)] else [] := by
  have only : defaultMaxNum c limit = (c.filter (Part.isDefine limit)).filterMap (Part.number limit) := by
    rw [List.filterMap_filter]
    refine List.filterMap_congr fun part _ => ?_
    cases part with
    | text s => rfl
    | define limit' rest =>
      have isDefine : (Part.define limit' rest).isDefine limit = decide (limit' = limit) := rfl
      by_cases same : limit' = limit
      · rw [isDefine, if_pos (decide_eq_true same)]
      · rw [isDefine, if_neg fun found => same (of_decide_eq_true found)]
        exact if_neg fun both => same both.1
  rw [only, shows, List.filterMap_cons, Part.number]
  simp only [true_and]
  split
  · next none_ =>
    split at none_
    · cases none_
    · next nothing => rw [if_neg nothing]; rfl
  · next some_ =>
    split at some_
    · next number =>
      cases some_
      rw [if_pos number]
      rfl
    · cases some_

theorem sedShows {c : SpeedC} {limit : Limit} {rest : String} (shows : Shows c limit rest) (new : String)
    (limit' : Limit) :
    (c.map (Part.sed new limit')).filter (Part.isDefine limit) = [Part.sed new limit' (.define limit rest)] := by
  have same : Part.isDefine limit ∘ Part.sed new limit' = Part.isDefine limit := by
    funext part
    cases part with
    | text s => rfl
    | define limit'' rest =>
      change Part.isDefine limit (if _ then _ else _) = _
      split <;> rfl
  rw [List.filter_map, same, shows]
  rfl

theorem sedOther {limit limit' : Limit} (other : limit ≠ limit') (new rest : String) :
    Part.sed new limit' (.define limit rest) = .define limit rest := if_neg fun both => other both.1

theorem sedOwn {limit : Limit} {rest : String} (stops : ∀ first ∈ rest.toList.head?, first.isDigit = false)
    (new : String) (number : Nat) :
    Part.sed new limit (.define limit (number.repr ++ rest)) = .define limit (new ++ rest) := by
  obtain ⟨some_, digit⟩ := reprDigits number
  obtain ⟨taken, left⟩ := digitsAppend digit stops
  rw [Part.sed, left, taken, if_pos ⟨rfl, some_⟩, String.ofList_toList]

theorem setShows {c c' : SpeedC} {new : String} (set : setNewSpeedValues c new = .ok c') {limit : Limit} {number : Nat}
    (default_ : HasDefault c limit number) :
    ∃ rest : String, (∀ first ∈ rest.toList.head?, first.isDigit = false) ∧ Shows c' limit (new ++ rest) := by
  obtain ⟨rest, shows, stops⟩ := default_
  refine ⟨rest, stops, ?_⟩
  unfold setNewSpeedValues at set
  dsimp only at set
  split at set
  · cases set
    have first := sedShows shows new .sig
    cases limit with
    | kem =>
      rw [sedOther (by decide)] at first
      have second := sedShows first new .kem
      rwa [sedOwn stops] at second
    | sig =>
      rw [sedOwn stops] at first
      have second := sedShows first new .kem
      rwa [sedOther (by decide)] at second
  · cases set

theorem limitNumeral {c : SpeedC} {limit : Limit} {new rest : String} (number : isNumber new = true)
    (stops : ∀ first ∈ rest.toList.head?, first.isDigit = false) (shows : Shows c limit (new ++ rest)) :
    limitValue c limit = cLiteral new := by
  simp only [isNumber, Bool.and_eq_true, decide_eq_true_eq, List.all_eq_true] at number
  unfold limitValue
  rw [defaultOf shows, (digitsAppend number.2 stops).1, if_pos number.1, String.ofList_toList]

theorem limitNegative {c : SpeedC} {limit : Limit} {digits_ rest : String}
    (shows : Shows c limit ("-" ++ digits_ ++ rest)) : limitValue c limit = none := by
  have none_ : digits ("-" ++ digits_ ++ rest) = [] := by
    rw [digits, String.toList_append, String.toList_append]
    rfl
  unfold limitValue
  rw [defaultOf shows, none_, if_neg (not_not_intro rfl)]

theorem limitInteger {c : SpeedC} {limit : Limit} {z : Int} (high : z < 2 ^ 63) {rest : String}
    (stops : ∀ first ∈ rest.toList.head?, first.isDigit = false) (shows : Shows c limit (toString z ++ rest)) :
    limitValue c limit = if 0 ≤ z then some z.toNat else none := by
  cases z with
  | ofNat n =>
    have number : isNumber n.repr = true := by
      obtain ⟨some_, digit⟩ := reprDigits n
      rw [isNumber, Bool.and_eq_true, decide_eq_true_eq, List.all_eq_true]
      exact ⟨some_, digit⟩
    have small : n < 2 ^ 64 := by
      have bound : (n : Int) < 2 ^ 63 := high
      omega
    rw [limitNumeral number stops shows, cLiteral, Numerals.literalRepr,
      if_pos (show 0 ≤ Int.ofNat n from Int.natCast_nonneg n)]
    exact if_pos (decide_eq_true small)
  | negSucc n =>
    rw [limitNegative shows, if_neg (by omega)]

end Texts

section Runs

variable {settings : Bool × String} {count : Count} {answers : List String} {c c' : SpeedC} {new : String}
  {kem sig : Nat}

theorem parseArgNumber {s s' : Settings} {arg : String} (parsed : parseArg s arg = .ok s')
    (number : ∀ v ∈ s.userDefinedSpeedValue, isNumber v = true) :
    ∀ v ∈ s'.userDefinedSpeedValue, isNumber v = true := by
  unfold parseArg at parsed
  split at parsed
  · split at parsed
    · cases parsed
      exact number
    · split at parsed
      · cases parsed
        exact number
      · cases parsed
  · split at parsed
    · split at parsed
      · next valid =>
        cases parsed
        intro v member
        cases member
        exact valid
      · cases parsed
    · cases parsed

theorem parseArgsNumber {args : List String} (parsed : parseArgs args = .ok settings) : isNumber settings.2 = true := by
  have loop : ∀ {args : List String} {s s' : Settings}, args.foldlM parseArg s = .ok s' →
      (∀ v ∈ s.userDefinedSpeedValue, isNumber v = true) → ∀ v ∈ s'.userDefinedSpeedValue, isNumber v = true := by
    intro args
    induction args with
    | nil =>
      intro s s' read number
      cases read
      exact number
    | cons arg args ih =>
      intro s s' read number
      rw [List.foldlM_cons] at read
      cases first : parseArg s arg with
      | error e =>
        rw [first] at read
        cases read
      | ok mid =>
        rw [first] at read
        exact ih read (parseArgNumber first number)
  unfold parseArgs at parsed
  split at parsed
  · cases parsed
  · cases read : args.foldlM parseArg ⟨none, none⟩ with
    | error e =>
      rw [read] at parsed
      cases parsed
    | ok s =>
      rw [read] at parsed
      have number := loop read nofun
      obtain ⟨flag, given⟩ := s
      cases flag with
      | none => cases parsed
      | some flag =>
        cases given with
        | none => cases parsed
        | some given =>
          change (if _ then _ else _) = _ at parsed
          split at parsed
          · cases parsed
          · cases parsed
            exact number given rfl

theorem useFallbackSpec {highest : Int} (used : useFallback highest answers = .ok new) :
    new = toString (fallbackValue highest) := by
  unfold useFallback at used
  split at used
  · cases used
  · cases used
    rfl
  · cases used

theorem newValueSpec (chosen : newValue settings (highestOf kem sig) count answers = .ok new) :
    if FallsBack settings count kem sig then new = toString (fallbackValue (highestOf kem sig))
    else if settings.1 then new = settings.2
    else ∃ algorithms : Nat, count = .counted algorithms ∧
      new = toString (wrap (highestOf kem sig + wrap algorithms)) := by
  obtain ⟨flag, given⟩ := settings
  unfold newValue at chosen
  unfold FallsBack
  cases flag with
  | true =>
    simp only [if_true] at chosen ⊢
    split at chosen
    · next low =>
      rw [if_pos low]
      exact useFallbackSpec chosen
    · next high =>
      cases chosen
      rw [if_neg high]
  | false =>
    simp only [Bool.false_eq_true, if_false] at chosen ⊢
    cases count with
    | counted algorithms =>
      rw [if_neg nofun]
      exact ⟨algorithms, rfl, (Except.ok.inj chosen).symm⟩
    | parseFailed =>
      rw [if_pos rfl]
      exact useFallbackSpec chosen
    | noNumber => cases chosen
    | fileNotFound => cases chosen
    | other => cases chosen

theorem hasDefineOf {limit : Limit} {number : Nat} (default_ : HasDefault c limit number) :
    hasDefine c limit = true := by
  obtain ⟨rest, shows, -⟩ := default_
  have member : Part.define limit (number.repr ++ rest) ∈ c.filter (Part.isDefine limit) := by
    rw [shows]
    exact List.mem_cons_self
  exact List.any_eq_true.mpr ⟨_, List.mem_of_mem_filter member, (List.mem_filter.mp member).2⟩

theorem defaultRead {limit : Limit} {number : Nat} (default_ : HasDefault c limit number) :
    defaultMaxNum c limit = [number.repr] := by
  obtain ⟨rest, shows, stops⟩ := default_
  obtain ⟨some_, digit⟩ := reprDigits number
  rw [defaultOf shows, (digitsAppend digit stops).1, if_pos some_, String.ofList_toList]

theorem highestRead : highestDefaultValue kem.repr sig.repr = some (highestOf kem sig) := by
  unfold highestDefaultValue arithmetic
  rw [Numerals.literalRepr, Numerals.literalRepr]
  rfl

theorem modifySpec (kemDefault : HasDefault c .kem kem) (sigDefault : HasDefault c .sig sig)
    (finished : modifyOpensslSrc settings (some c) count answers = .ok (.modified c' new)) :
    newValue settings (highestOf kem sig) count answers = .ok new ∧ setNewSpeedValues c new = .ok c' := by
  have present : (some c).filter (fun c => hasDefine c .sig && hasDefine c .kem) = some c := by
    rw [Option.filter_some, hasDefineOf kemDefault, hasDefineOf sigDefault]
    rfl
  unfold modifyOpensslSrc at finished
  rw [present] at finished
  dsimp only at finished
  rw [defaultRead kemDefault, defaultRead sigDefault] at finished
  dsimp only at finished
  rw [highestRead] at finished
  change (newValue settings (highestOf kem sig) count answers).bind _ = _ at finished
  cases chosen : newValue settings (highestOf kem sig) count answers with
  | error e =>
    rw [chosen] at finished
    cases finished
  | ok value =>
    rw [chosen] at finished
    change (setNewSpeedValues c value).bind _ = _ at finished
    cases set : setNewSpeedValues c value with
    | error e =>
      rw [set] at finished
      cases finished
    | ok written =>
      rw [set] at finished
      cases finished
      exact ⟨rfl, set⟩

end Runs

section Sizes

variable {settings : Bool × String} {count : Count} {c : SpeedC} {z : Int} {kem sig : Nat}

theorem integerLimits (limits : ∀ limit, limitValue c limit = if 0 ≤ z then some z.toNat else none) :
    LargeEnough settings count kem sig c ↔ max (kem : Int) sig ≤ z ∧
      (∀ algorithms : Nat, settings.1 = false → count = .counted algorithms → max (kem : Int) sig + algorithms ≤ z) ∧
      (FallsBack settings count kem sig → max (kem : Int) sig < z) := by
  unfold LargeEnough
  rw [limits, limits]
  by_cases sign : 0 ≤ z
  · rw [if_pos sign]
    constructor
    · rintro ⟨n, same, -, top, sums, exceeds⟩
      cases same
      refine ⟨by omega, fun algorithms automatic counted => ?_, fun back => ?_⟩
      · have sum := sums algorithms automatic counted
        omega
      · have more := exceeds back
        omega
    · rintro ⟨top, sums, exceeds⟩
      refine ⟨z.toNat, rfl, rfl, by omega, fun algorithms automatic counted => ?_, fun back => ?_⟩
      · have sum := sums algorithms automatic counted
        omega
      · have more := exceeds back
        omega
  · rw [if_neg sign]
    constructor
    · rintro ⟨n, none_, -⟩
      cases none_
    · rintro ⟨top, -⟩
      omega

theorem highestSmall (small : max kem sig < 2 ^ 63) : highestOf kem sig = max (kem : Int) sig := by
  unfold highestOf
  rw [Numerals.wrapSmall (by omega) (by omega), Numerals.wrapSmall (by omega) (by omega)]
  omega

theorem fallbackBound (highest : Int) : fallbackValue highest < 2 ^ 63 := by
  unfold fallbackValue
  split
  · exact (Numerals.wrapBounds _).2
  · decide

theorem fallbackLarge : max (kem : Int) sig < fallbackValue (highestOf kem sig) ↔
    max kem sig ≠ 200 ∧ max kem sig + 100 < 2 ^ 63 := by
  have bound := fallbackBound (highestOf kem sig)
  by_cases small : max kem sig < 2 ^ 63
  · rw [highestSmall small] at bound ⊢
    unfold fallbackValue emergencyPadding at bound ⊢
    split
    · next high =>
      by_cases fits : max kem sig + 100 < 2 ^ 63
      · rw [Numerals.wrapSmall (by omega) (by omega)]
        omega
      · rw [Numerals.wrapSpec]
        omega
    · omega
  · omega

theorem sumLarge {algorithms : Nat} : max (kem : Int) sig + algorithms ≤ wrap (highestOf kem sig + wrap algorithms) ↔
    max kem sig + algorithms < 2 ^ 63 := by
  have bound := (Numerals.wrapBounds (highestOf kem sig + wrap algorithms)).2
  constructor
  · intro large
    omega
  · intro small
    have sum : wrap (highestOf kem sig + wrap algorithms) = max (kem : Int) sig + algorithms := by
      rw [highestSmall (by omega), Numerals.wrapSmall (n := (algorithms : Int)) (by omega) (by omega),
        Numerals.wrapSmall (by omega) (by omega)]
    exact Int.le_of_eq sum.symm

end Sizes

theorem limitsLargeEnough (args : List String) (settings : Bool × String) (parsed : parseArgs args = .ok settings)
    (c c' : SpeedC) (kem sig : Nat) (kemDefault : HasDefault c .kem kem) (sigDefault : HasDefault c .sig sig)
    (count : Count) (answers : List String) (new : String)
    (finished : modifyOpensslSrc settings (some c) count answers = .ok (.modified c' new)) :
    LargeEnough settings count kem sig c' ↔ Ample settings count kem sig := by
  obtain ⟨chosen, set⟩ := modifySpec kemDefault sigDefault finished
  have origin := newValueSpec chosen
  have integer : ∀ z : Int, z < 2 ^ 63 → new = toString z →
      ∀ limit, limitValue c' limit = if 0 ≤ z then some z.toNat else none := by
    intro z high same limit
    cases limit with
    | kem =>
      obtain ⟨rest, stops, shows⟩ := setShows set kemDefault
      exact limitInteger high stops (same ▸ shows)
    | sig =>
      obtain ⟨rest, stops, shows⟩ := setShows set sigDefault
      exact limitInteger high stops (same ▸ shows)
  unfold Ample
  by_cases back : FallsBack settings count kem sig
  · rw [if_pos back] at origin ⊢
    rw [integerLimits (integer _ (fallbackBound _) origin), ← fallbackLarge]
    refine ⟨fun all => all.2.2 back, fun exceeds => ⟨by omega, fun algorithms automatic counted => ?_, fun _ => exceeds⟩⟩
    rw [FallsBack, automatic, counted, if_neg Bool.false_ne_true] at back
    cases back
  · rw [if_neg back] at origin ⊢
    by_cases user : settings.1 = true
    · rw [if_pos user] at origin ⊢
      have number : isNumber new = true := origin ▸ parseArgsNumber parsed
      obtain ⟨kemRest, kemStops, kemShows⟩ := setShows set kemDefault
      obtain ⟨sigRest, sigStops, sigShows⟩ := setShows set sigDefault
      unfold LargeEnough
      rw [limitNumeral number kemStops kemShows, limitNumeral number sigStops sigShows, origin]
      constructor
      · rintro ⟨n, read, -, top, -⟩
        exact ⟨n, read, top⟩
      · rintro ⟨n, read, top⟩
        refine ⟨n, read, read, top, fun _ automatic => ?_, fun falls => absurd falls back⟩
        rw [user] at automatic
        cases automatic
    · rw [if_neg user] at origin ⊢
      obtain ⟨algorithms, counted, same⟩ := origin
      have automatic : settings.1 = false := Bool.eq_false_iff.mpr user
      rw [integerLimits (integer _ (Numerals.wrapBounds _).2 same)]
      constructor
      · rintro ⟨-, sums, -⟩ others found
        cases counted.symm.trans found
        exact sumLarge.mp (sums algorithms automatic counted)
      · intro small
        have sum := sumLarge.mpr (small algorithms counted)
        refine ⟨by omega, fun others _ found => ?_, fun falls => absurd falls back⟩
        cases counted.symm.trans found
        exact sum

def plainSpeedC : SpeedC := [.define .kem "111\n", .define .sig "111\n"]

theorem lineEnds : ∀ first ∈ ("\n" : String).toList.head?, first.isDigit = false := by
  rintro first ⟨⟩
  rfl

theorem plainDefault : HasDefault plainSpeedC .kem 111 ∧ HasDefault plainSpeedC .sig 111 :=
  ⟨⟨"\n", by decide, lineEnds⟩, ⟨"\n", by decide, lineEnds⟩⟩

theorem limitsLargeEnoughUser : LargeEnough (true, "400") .other 111 111
    [.define .kem "400\n", .define .sig "400\n"] ↔ Ample (true, "400") .other 111 111 :=
  limitsLargeEnough ["--user-defined-flag=1", "--user-defined-speed-value=400"] (true, "400") rfl plainSpeedC _ 111 111
    plainDefault.1 plainDefault.2 .other [] "400" rfl

theorem fallbackNotGreater : ¬ ∀ (args : List String) (settings : Bool × String), parseArgs args = .ok settings →
    ∀ (c c' : SpeedC) (kem sig : Nat), HasDefault c .kem kem → HasDefault c .sig sig →
      ∀ (count : Count) (answers : List String) (new : String),
        modifyOpensslSrc settings (some c) count answers = .ok (.modified c' new) →
          LargeEnough settings count kem sig c' := by
  intro large
  have default_ : HasDefault [.define .kem "200\n", .define .sig "200\n"] .kem 200 ∧
      HasDefault [.define .kem "200\n", .define .sig "200\n"] .sig 200 :=
    ⟨⟨"\n", by decide, lineEnds⟩, ⟨"\n", by decide, lineEnds⟩⟩
  have finished : modifyOpensslSrc (false, "0") (some [.define .kem "200\n", .define .sig "200\n"]) .parseFailed ["y"] =
      .ok (.modified [.define .kem "200\n", .define .sig "200\n"] "200") := by decide +kernel
  obtain ⟨n, read, -, -, -, exceeds⟩ := large ["--user-defined-flag=0", "--user-defined-speed-value=0"] (false, "0") rfl
    _ _ 200 200 default_.1 default_.2 .parseFailed ["y"] "200" finished
  have more := exceeds rfl
  have written : limitValue [.define .kem "200\n", .define .sig "200\n"] .kem = some 200 := by decide +kernel
  rw [written] at read
  cases read
  exact Nat.lt_irrefl 200 more

end Armor.Setup.SpeedLimits
