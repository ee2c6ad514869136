import Armor.Keccak.Assembly
import Mathlib.Data.Fintype.EquivFin
import Mathlib.Tactic.FinCases

/-! The `round` macro is one round of Keccak-f[1600] on each element, and the whole routine the
24 rounds on both instances. -/
namespace Armor.Keccak.Assembly
open TwoLane

def lanesIn (z : RegisterFile) : Lanes := Vector.ofFn fun i => z (i.castLE (by decide))

def elements (program : List Instruction) (z : RegisterFile) : RegisterFile := program.foldl element z

theorem elementsAppend (p q : List Instruction) (z : RegisterFile) :
    elements (p ++ q) z = elements q (elements p z) := List.foldl_append

theorem rotrRotl (w : UInt64) {n : Nat} (positive : 0 < n) (small : n < 64) : rotr w (64 - n) = rotl w n := by
  have turn : (64 - n) % 64 = 64 - n := Nat.mod_eq_of_lt (by omega)
  have back : (64 - (64 - n)) % 64 = n := by rw [show 64 - (64 - n) = n by omega, Nat.mod_eq_of_lt small]
  rw [rotr, rotl, turn, back, Nat.mod_eq_of_lt small, turn, UInt64.or_comm]

theorem rotlZero (w : UInt64) : rotl w 0 = w := by
  have shiftLeft : w <<< UInt64.ofNat (0 % 64) = w := UInt64.shiftLeft_zero
  have shiftRight : w >>> UInt64.ofNat ((64 - 0 % 64) % 64) = w := UInt64.shiftRight_zero
  rw [rotl, shiftLeft, shiftRight, UInt64.or_self]

def piSource (i : Fin 25) : Fin 25 := ⟨(i.val % 5 + 3 * (i.val / 5)) % 5 + 5 * (i.val % 5 % 5), by omega⟩

theorem piRhoAt (a : Lanes) (i : Fin 25) :
    (pi (rho a)).get i = rotl (a.get (piSource i)) (rhoOffsets.get (piSource i)) := by
  have outer : (pi (rho a)).get i = lane (rho a) (i.val % 5 + 3 * (i.val / 5)) (i.val % 5) := Vector.getElem_ofFn _
  rw [outer]
  exact Vector.getElem_ofFn _

def reg (i : Fin 25) : Reg := i.castLE (by decide)

def dRegs : Vector Reg 5 := #v[30, 27, 28, 29, 25]

def column (z : RegisterFile) (x : Fin 5) : UInt64 :=
  let top : Reg := x.castLE (by decide)
  z top ^^^ z (top + 5) ^^^ z (top + 10) ^^^ z (top + 15) ^^^ z (top + 20)

def spread (z : RegisterFile) (x : Fin 5) : UInt64 := column z (x + 4) ^^^ rotl (column z (x + 1)) 1

def sheet (i : Fin 25) : Fin 5 := ⟨i.val % 5, Nat.mod_lt _ (by decide)⟩

theorem thetaSpread (z : RegisterFile) : ∀ x : Fin 5, elements thetaStep z (dRegs.get x) = spread z x := by
  intro x
  fin_cases x <;> rfl

theorem thetaKept (z : RegisterFile) : ∀ i : Fin 25, i ≠ 0 → elements thetaStep z (reg i) = z (reg i) := by
  intro i other
  fin_cases i <;> first | exact absurd rfl other | rfl

theorem thetaFirst (z : RegisterFile) : elements thetaStep z 0 = z 0 ^^^ spread z 0 := rfl

theorem rotations (z : RegisterFile) : ∀ i : Fin 25, i ≠ 0 → elements rhoPiStep z (reg i) =
    rotr (z (reg (piSource i)) ^^^ z (dRegs.get (sheet (piSource i)))) (64 - rhoOffsets.get (piSource i)) := by
  intro i other
  fin_cases i <;> first | exact absurd rfl other | rfl

theorem rotationsFirst (z : RegisterFile) : elements rhoPiStep z 0 = z 0 := rfl

def rightOf (n : Nat) (i : Fin 25) : Fin 25 := ⟨(i.val % 5 + n) % 5 + 5 * (i.val / 5), by omega⟩

theorem chiRun (z : RegisterFile) : ∀ i : Fin 25, elements chiStep z (reg i) =
    z (reg i) ^^^ (z (reg (rightOf 2 i)) &&& ~~~ z (reg (rightOf 1 i))) := by
  intro i
  fin_cases i <;> rfl

theorem lanesInAt (z : RegisterFile) (i : Fin 25) : (lanesIn z).get i = z (reg i) := Vector.getElem_ofFn _

theorem lanesInExt {z : RegisterFile} {a : Lanes} (same : ∀ i : Fin 25, z (reg i) = a.get i) : lanesIn z = a := by
  refine Vector.ext fun i below => ?_
  have here := same ⟨i, below⟩
  exact (lanesInAt z ⟨i, below⟩).trans here

theorem laneHere (a : Lanes) (i : Fin 25) : lane a (i.val % 5) (i.val / 5) = a.get i :=
  congrArg a.get (Fin.ext (by simp only; omega))

theorem laneRight (a : Lanes) (n : Nat) (i : Fin 25) :
    lane a (i.val % 5 + n) (i.val / 5) = a.get (rightOf n i) :=
  congrArg a.get (Fin.ext (by simp only [rightOf]; omega))

theorem columnRegs : ∀ x : Fin 5, ∀ k : Fin 5, ∀ h, reg ⟨x.val % 5 + 5 * (k.val % 5), h⟩ =
    (x.castLE (by decide) : Reg) + 5 * k.castLE (by decide) := by decide

theorem columnLanes (z : RegisterFile) (x : Fin 5) :
    lane (lanesIn z) x 0 ^^^ lane (lanesIn z) x 1 ^^^ lane (lanesIn z) x 2 ^^^ lane (lanesIn z) x 3 ^^^
      lane (lanesIn z) x 4 = column z x := by
  have cell : ∀ k : Fin 5, lane (lanesIn z) x k = z ((x.castLE (by decide) : Reg) + 5 * k.castLE (by decide)) :=
    fun k => (lanesInAt z _).trans (congrArg z (columnRegs x k _))
  have lane0 : lane (lanesIn z) x 0 = z (x.castLE (by decide)) :=
    (cell 0).trans (congrArg z (Fin.add_zero _))
  have lane1 : lane (lanesIn z) x 1 = z (x.castLE (by decide) + 5) := cell 1
  have lane2 : lane (lanesIn z) x 2 = z (x.castLE (by decide) + 10) := cell 2
  have lane3 : lane (lanesIn z) x 3 = z (x.castLE (by decide) + 15) := cell 3
  have lane4 : lane (lanesIn z) x 4 = z (x.castLE (by decide) + 20) := cell 4
  rw [lane0, lane1, lane2, lane3, lane4]
  rfl

theorem thetaAt (z : RegisterFile) (i : Fin 25) :
    (theta (lanesIn z)).get i = z (reg i) ^^^ spread z (sheet i) := by
  have outer : (theta (lanesIn z)).get i = lane (lanesIn z) (i.val % 5) (i.val / 5) ^^^ _ := Vector.getElem_ofFn _
  have columns : ∀ x : Fin 5, (Vector.ofFn fun x : Fin 5 => lane (lanesIn z) x 0 ^^^ lane (lanesIn z) x 1 ^^^
      lane (lanesIn z) x 2 ^^^ lane (lanesIn z) x 3 ^^^ lane (lanesIn z) x 4).get x = column z x := fun x => by
    rw [← columnLanes]
    exact Vector.getElem_ofFn _
  rw [outer, laneHere, lanesInAt, columns, columns]
  rfl

theorem chiAt (z : RegisterFile) (i : Fin 25) :
    (chi (lanesIn z)).get i = z (reg i) ^^^ (~~~ z (reg (rightOf 1 i)) &&& z (reg (rightOf 2 i))) := by
  have outer : (chi (lanesIn z)).get i = lane (lanesIn z) (i.val % 5) (i.val / 5) ^^^
      (~~~ lane (lanesIn z) (i.val % 5 + 1) (i.val / 5) &&& lane (lanesIn z) (i.val % 5 + 2) (i.val / 5)) :=
    Vector.getElem_ofFn _
  rw [outer, laneHere, laneRight, laneRight, lanesInAt, lanesInAt, lanesInAt]

theorem offsetsInside : ∀ i : Fin 25, i ≠ 0 →
    piSource i ≠ 0 ∧ 0 < rhoOffsets.get (piSource i) ∧ rhoOffsets.get (piSource i) < 64 := by decide

theorem linearLayers (z : RegisterFile) :
    lanesIn (elements (thetaStep ++ rhoPiStep) z) = pi (rho (theta (lanesIn z))) := by
  refine lanesInExt fun i => ?_
  rw [elementsAppend, piRhoAt, thetaAt]
  by_cases first : i = 0
  · subst first
    have zero : rhoOffsets.get (piSource 0) = 0 := rfl
    rw [zero, rotlZero]
    exact (rotationsFirst _).trans (thetaFirst z)
  · obtain ⟨source, positive, small⟩ := offsetsInside i first
    rw [rotations _ i first, thetaKept z _ source, thetaSpread, rotrRotl _ positive small]

theorem chiLayer (z : RegisterFile) : lanesIn (elements chiStep z) = chi (lanesIn z) :=
  lanesInExt fun i => by rw [chiRun, chiAt, UInt64.and_comm]

theorem setFirst (a : Lanes) (v : UInt64) (i : Fin 25) : (a.set 0 v someLane).get i = if 0 = i.val then v else a.get i :=
  Vector.getElem_set _ _

theorem iotaLayer (rc : UInt64) (z : RegisterFile) :
    lanesIn (Function.update (Function.update z 25 rc) 0 (z 0 ^^^ rc)) = iota rc (lanesIn z) := by
  refine lanesInExt fun i => ?_
  rw [iota, setFirst]
  by_cases first : i = 0
  · subst first
    rw [if_pos (show 0 = (0 : Fin 25).val from rfl)]
    exact (Function.update_self 0 _ _).trans (congrArg (· ^^^ rc) (lanesInAt z 0).symm)
  · have low : reg i ≠ 0 := fun same => by
      have value : (reg i).val = 0 := congrArg Fin.val same
      exact first (Fin.ext value)
    have mid : reg i ≠ 25 := fun same => absurd (Fin.ext_iff.mp same) (Nat.ne_of_lt i.isLt)
    rw [Function.update_of_ne low, Function.update_of_ne mid, if_neg fun same => first (Fin.ext same.symm)]
    exact (lanesInAt z i).symm

def between : Instruction → Bool
  | .ld1rd _ | .ld1d _ | .st1d _ | .addX0 _ | .addX1 _ => false
  | _ => true

theorem executeBetween (table : WordMem) (m : Machine) {i : Instruction} (inside : between i = true) :
    execute table m i = { m with z := fun e => element (m.z e) i } := by
  cases i <;> first | rfl | cases inside

theorem runAppend (table : WordMem) (p q : List Instruction) (m : Machine) :
    run table (p ++ q) m = run table q (run table p m) := List.foldl_append

theorem runBetween (table : WordMem) (program : List Instruction) (inside : program.all between = true) (m : Machine) :
    run table program m = { m with z := fun e => elements program (m.z e) } := by
  induction program generalizing m with
  | nil => rfl
  | cons i rest ih =>
    rw [List.all_cons, Bool.and_eq_true] at inside
    change run table rest (execute table m i) = _
    rw [executeBetween table m inside.1, ih inside.2]
    rfl

theorem iotaRun (table : WordMem) (m : Machine) :
    (run table iotaStep m).x0 = m.x0 ∧ (run table iotaStep m).x1 = m.x1 + 8 ∧
      (run table iotaStep m).state = m.state ∧
      ∀ e < 2, lanesIn ((run table iotaStep m).z e) = iota (table (m.x1 / 8)) (lanesIn (m.z e)) := by
  refine ⟨rfl, rfl, rfl, fun e below => ?_⟩
  have active : p0 e = true := decide_eq_true below
  have constant : (if p0 e = true then table (m.x1 / 8) else 0) = table (m.x1 / 8) := if_pos active
  rw [← iotaLayer, ← constant]
  rfl

theorem roundRun (table : WordMem) (m : Machine) :
    (run table round m).x0 = m.x0 ∧ (run table round m).x1 = m.x1 + 8 ∧ (run table round m).state = m.state ∧
      ∀ e < 2, lanesIn ((run table round m).z e) =
        iota (table (m.x1 / 8)) (chi (pi (rho (theta (lanesIn (m.z e)))))) := by
  have layers : ∀ z, lanesIn (elements (thetaStep ++ rhoPiStep ++ chiStep) z) =
      chi (pi (rho (theta (lanesIn z)))) := fun z => by
    rw [elementsAppend, chiLayer, linearLayers]
  rw [round, runAppend, runBetween table (thetaStep ++ rhoPiStep ++ chiStep) rfl]
  obtain ⟨x0, x1, state, lanes⟩ := iotaRun table
    { m with z := fun e => elements (thetaStep ++ rhoPiStep ++ chiStep) (m.z e) }
  refine ⟨x0, x1, state, fun e below => ?_⟩
  rw [lanes e below, layers]

def rounds (table : WordMem) (x1 count : Nat) (a : Lanes) : Lanes :=
  Loop.upTo count (fun i a => iota (table (x1 / 8 + i)) (chi (pi (rho (theta a))))) a

theorem loopRun (table : WordMem) (count : Nat) (m : Machine) :
    (loop table count m).x0 = m.x0 ∧ (loop table count m).state = m.state ∧
      ∀ e < 2, lanesIn ((loop table count m).z e) = rounds table m.x1 count (lanesIn (m.z e)) := by
  induction count generalizing m with
  | zero => exact ⟨rfl, rfl, fun e _ => rfl⟩
  | succ count ih =>
    obtain ⟨x0, x1, state, lanes⟩ := roundRun table m
    obtain ⟨x0', state', lanes'⟩ := ih (run table round m)
    have next : loop table (count + 1) m = loop table count (run table round m) := by
      rw [loop]
      cases count with
      | zero => rfl
      | succ count => exact if_pos (Nat.succ_ne_zero count)
    rw [next]
    refine ⟨x0'.trans x0, state'.trans state, fun e below => ?_⟩
    rw [lanes' e below, lanes e below, x1, rounds, rounds, Loop.upToFirst, Nat.add_zero]
    refine Loop.upToCongr (fun i _ a => ?_) _
    rw [show (m.x1 + 8) / 8 + i = m.x1 / 8 + (i + 1) by omega]

theorem loadRegs (table : WordMem) (rs : List Reg) (apart : rs.Nodup) (m : Machine) :
    run table (rs.flatMap fun r => [.ld1d r, .addX0 16]) m = { m with
      x0 := m.x0 + 16 * rs.length
      z := fun e r => if r ∈ rs then (if p0 e then m.state (m.x0 / 8 + (2 * rs.idxOf r + e)) else 0) else m.z e r } := by
  induction rs generalizing m with
  | nil => rfl
  | cons r rest ih =>
    obtain ⟨notIn, apart⟩ := List.nodup_cons.mp apart
    obtain ⟨z, x0, x1, s⟩ := m
    have after : run table [.ld1d r, .addX0 16] ⟨z, x0, x1, s⟩ = ⟨fun e =>
        Function.update (z e) r (if p0 e then s (x0 / 8 + e) else 0), x0 + 16, x1, s⟩ := rfl
    rw [List.flatMap_cons, runAppend, after, ih apart, List.length_cons]
    congr 1
    · funext e r'
      dsimp only
      by_cases here : r' = r
      · subst here
        rw [if_neg notIn, if_pos List.mem_cons_self, Function.update_self, List.idxOf_cons_self,
          Nat.mul_zero, Nat.zero_add]
      · rw [Function.update_of_ne here, List.idxOf_cons_ne rest (Ne.symm here)]
        simp only [List.mem_cons, here, false_or]
        rw [show (x0 + 16) / 8 + (2 * rest.idxOf r' + e) = x0 / 8 + (2 * (rest.idxOf r' + 1) + e) by omega]
    · simp only
      omega

theorem loadRun (table : WordMem) (z : Nat → RegisterFile) (x1 : Nat) (s : WordMem) :
    let m := run table loadState ⟨z, 0, x1, s⟩
    m.x1 = x1 ∧ m.state = s ∧ ∀ e < 2, lanesIn (m.z e) = lanesOf s e := by
  have listed : ∀ i : Fin 24, reg (i.castLE (by decide)) ∈ stateRegs ∧
      stateRegs.idxOf (reg (i.castLE (by decide))) = i.val := by decide
  have width : stateRegs.length = 24 := rfl
  have split : run table loadState ⟨z, 0, x1, s⟩ = run table [.ld1d 24]
      (run table (stateRegs.flatMap fun r => [.ld1d r, .addX0 16]) ⟨z, 0, x1, s⟩) := runAppend table _ _ _
  rw [split, loadRegs table stateRegs (by decide), width]
  refine ⟨rfl, rfl, fun e below => lanesInExt fun i => ?_⟩
  have active : p0 e = true := decide_eq_true below
  have word : (lanesOf s e).get i = s (2 * i.val + e) := Vector.getElem_ofFn _
  have last : ∀ m : Machine, (run table [.ld1d 24] m).z e =
      Function.update (m.z e) 24 (if p0 e then m.state (m.x0 / 8 + e) else 0) := fun _ => rfl
  rw [word, last, if_pos active]
  by_cases end_ : i.val = 24
  · have top : reg i = 24 := Fin.ext end_
    rw [top, Function.update_self, end_]
    dsimp only
  · have low : reg i ≠ 24 := fun same => end_ (congrArg Fin.val same)
    obtain ⟨member, index⟩ := listed ⟨i.val, by omega⟩
    rw [Function.update_of_ne low]
    refine (if_pos member).trans ((if_pos active).trans ?_)
    rw [show (⟨i.val, by omega⟩ : Fin 24).castLE (by decide) = i from rfl] at index
    rw [Nat.zero_div, Nat.zero_add]
    exact congrArg (fun k => s (2 * k + e)) index

theorem storeRegs (table : WordMem) (rs : List Reg) (m : Machine) :
    run table (rs.flatMap fun r => [.st1d r, .addX0 16]) m = { m with
      x0 := m.x0 + 16 * rs.length
      state := fun w => if m.x0 / 8 ≤ w ∧ w < m.x0 / 8 + 2 * rs.length then
        m.z ((w - m.x0 / 8) % 2) (rs.getD ((w - m.x0 / 8) / 2) 0) else m.state w } := by
  induction rs generalizing m with
  | nil =>
    have none : (fun w => if m.x0 / 8 ≤ w ∧ w < m.x0 / 8 + 2 * ([] : List Reg).length then
        m.z ((w - m.x0 / 8) % 2) (([] : List Reg).getD ((w - m.x0 / 8) / 2) 0) else m.state w) = m.state :=
      funext fun w => if_neg (by rw [List.length_nil]; omega)
    rw [none]
    rfl
  | cons r rest ih =>
    rw [List.flatMap_cons, runAppend, ih]
    obtain ⟨z, x0, x1, s⟩ := m
    have after : run table [.st1d r, .addX0 16] ⟨z, x0, x1, s⟩ = ⟨z, x0 + 16, x1, fun w =>
        if x0 / 8 ≤ w ∧ p0 (w - x0 / 8) then z (w - x0 / 8) r else s w⟩ := rfl
    have half : (x0 + 16) / 8 = x0 / 8 + 2 := by omega
    rw [after, List.length_cons]
    congr 1
    · simp only
      omega
    funext w
    simp only [half, p0, decide_eq_true_eq]
    by_cases here : x0 / 8 ≤ w ∧ w < x0 / 8 + 2
    · have index : (w - x0 / 8) / 2 = 0 := by omega
      have part : (w - x0 / 8) % 2 = w - x0 / 8 := by omega
      rw [if_neg (by omega), if_pos (by omega), if_pos (by omega), index, part]
      rfl
    · by_cases later : x0 / 8 + 2 ≤ w ∧ w < x0 / 8 + 2 + 2 * rest.length
      · have index : (w - x0 / 8) / 2 = (w - (x0 / 8 + 2)) / 2 + 1 := by omega
        have part : (w - x0 / 8) % 2 = (w - (x0 / 8 + 2)) % 2 := by omega
        rw [if_pos later, if_pos (by omega), index, part, List.getD_cons_succ]
      · rw [if_neg later, if_neg (by omega), if_neg (by omega)]

theorem storeRun (table : WordMem) (z : Nat → RegisterFile) (x1 : Nat) (s : WordMem) :
    (run table storeState ⟨z, 0, x1, s⟩).state = fun w =>
      if h : w < 50 then getElem (lanesIn (z (w % 2))) (w / 2) (TwoLane.laneOfWord h) else s w := by
  have listed : ∀ i : Fin 24, stateRegs.getD i.val 0 = reg (i.castLE (by decide)) := by decide
  rw [storeState, runAppend, storeRegs]
  funext w
  have last : ∀ m : Machine, (run table [.st1d 24] m).state = fun w =>
      if m.x0 / 8 ≤ w ∧ p0 (w - m.x0 / 8) then m.z (w - m.x0 / 8) 24 else m.state w := fun _ => rfl
  have width : stateRegs.length = 24 := rfl
  simp only [last, width, p0, decide_eq_true_eq]
  by_cases inside : w < 50
  · have entry : (lanesIn (z (w % 2)))[w / 2] = z (w % 2) (reg ⟨w / 2, by omega⟩) := Vector.getElem_ofFn _
    rw [dif_pos inside, entry]
    by_cases end_ : 48 ≤ w
    · have index : w / 2 = 24 := by omega
      have part : w - (0 + 16 * 24) / 8 = w % 2 := by omega
      have top : (24 : Reg) = reg ⟨w / 2, by omega⟩ := Fin.ext index.symm
      rw [if_pos (by omega), part]
      exact congrArg (z (w % 2)) top
    · rw [if_neg (by omega), if_pos (by omega)]
      have start : w - 0 / 8 = w := by omega
      rw [start, listed ⟨w / 2, by omega⟩]
      rfl
  · rw [dif_neg inside, if_neg (by omega), if_neg (by omega)]

theorem f1600x2Stored (table : WordMem) (z : Nat → RegisterFile) (s : WordMem) (w : Nat) :
    (f1600x2 table ⟨z, 0, 0, s⟩).state w = if h : w < 50 then
      getElem (lanesIn ((loop table 24 (run table loadState ⟨z, 0, 0, s⟩)).z (w % 2))) (w / 2)
        (TwoLane.laneOfWord h) else s w := by
  obtain ⟨-, loaded, -⟩ := loadRun table z 0 s
  rw [f1600x2]
  generalize run table loadState ⟨z, 0, 0, s⟩ = m at loaded ⊢
  obtain ⟨-, kept, -⟩ := loopRun table 24 m
  rw [loaded] at kept
  generalize loop table 24 m = m' at kept ⊢
  rw [← kept]
  exact congrFun (storeRun table m'.z m'.x1 m'.state) w

theorem f1600x2Lanes (z : Nat → RegisterFile) (s : WordMem) {e : Nat} (below : e < 2) :
    lanesIn ((loop roundConstants 24 (run roundConstants loadState ⟨z, 0, 0, s⟩)).z e) = keccakF (lanesOf s e) := by
  obtain ⟨x1, -, loaded⟩ := loadRun roundConstants z 0 s
  generalize run roundConstants loadState ⟨z, 0, 0, s⟩ = m at x1 loaded ⊢
  obtain ⟨-, -, turned⟩ := loopRun roundConstants 24 m
  have fold := Loop.upToList keccakFRoundConstants 0
    (fun rc a => iota rc (chi (pi (rho (theta a))))) (lanesOf s e)
  rw [turned e below, loaded e below, x1, rounds, keccakF, ← fold]
  refine Loop.upToCongr (fun i _ a => ?_) _
  rw [Nat.zero_div, Nat.zero_add, roundConstants]

theorem f1600x2Instance (z : Nat → RegisterFile) (s : WordMem) {e : Nat} (below : e < 2) :
    lanesOf (f1600x2 roundConstants ⟨z, 0, 0, s⟩).state e = keccakF (lanesOf s e) := by
  have stored := f1600x2Stored roundConstants z s
  generalize (f1600x2 roundConstants ⟨z, 0, 0, s⟩).state = out at stored ⊢
  have lanes := f1600x2Lanes z s below
  generalize loop roundConstants 24 (run roundConstants loadState ⟨z, 0, 0, s⟩) = m at stored lanes
  refine Vector.ext fun i inside => ?_
  have entry : (lanesOf out e)[i] = out (2 * i + e) := Vector.getElem_ofFn _
  have half : (2 * i + e) / 2 = i := by omega
  have part : (2 * i + e) % 2 = e := by omega
  rw [entry, stored, dif_pos (show 2 * i + e < 50 by omega), ← lanes]
  simp only [half, part]

theorem f1600x2Keccak (z : Nat → RegisterFile) (s : WordMem) :
    let out := (f1600x2 roundConstants ⟨z, 0, 0, s⟩).state
    lanesOf out 0 = standardKeccakF (lanesOf s 0) ∧ lanesOf out 1 = standardKeccakF (lanesOf s 1) ∧
      ∀ w, out (50 + w) = s (50 + w) := by
  rw [← keccakFStandard, ← keccakFStandard]
  refine ⟨f1600x2Instance z s (by decide), f1600x2Instance z s (by decide), fun w => ?_⟩
  rw [f1600x2Stored, dif_neg (show ¬ 50 + w < 50 by omega)]

end Armor.Keccak.Assembly
