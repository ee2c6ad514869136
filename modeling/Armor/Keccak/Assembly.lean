import Armor.Keccak.TwoLane

/-! `f1600sve2.S`: the state of both instances in the registers `z0` .. `z24`, one instance an
element, and the `round` macro as a list of instructions. Elements past the second exist on
longer vectors; the predicate `p0` keeps them out of memory. -/
namespace Armor.Keccak.Assembly
open TwoLane

abbrev Reg := Fin 32

instance regSome : NeZero 32 := ⟨by decide⟩

abbrev RegisterFile := Reg → UInt64

inductive Instruction where
  | movprfx (d n : Reg)
  | mov (d n : Reg)
  | eor (d n m : Reg)
  | eor3 (dn m k : Reg)
  | rax1 (d n m : Reg)
  | xar (dn m : Reg) (shift : Nat)
  | bcax (dn m k : Reg)
  | ld1rd (d : Reg)
  | ld1d (d : Reg)
  | st1d (n : Reg)
  | addX0 (imm : Nat)
  | addX1 (imm : Nat)

def rotr (w : UInt64) (n : Nat) : UInt64 :=
  w >>> UInt64.ofNat (n % 64) ||| w <<< UInt64.ofNat ((64 - n % 64) % 64)

def element (z : RegisterFile) : Instruction → RegisterFile
  | .movprfx d n => Function.update z d (z n)
  | .mov d n => Function.update z d (z n)
  | .eor d n m => Function.update z d (z n ^^^ z m)
  | .eor3 dn m k => Function.update z dn (z dn ^^^ z m ^^^ z k)
  | .rax1 d n m => Function.update z d (z n ^^^ rotl (z m) 1)
  | .xar dn m shift => Function.update z dn (rotr (z dn ^^^ z m) shift)
  | .bcax dn m k => Function.update z dn (z dn ^^^ (z m &&& ~~~ z k))
  | _ => z

/-- `z e r` is element `e` of register `r`; `x0` and `x1` are byte offsets into the state and
into the table of round constants. -/
structure Machine where
  z : Nat → RegisterFile
  x0 : Nat
  x1 : Nat
  state : WordMem

def p0 (e : Nat) : Bool := e < 2

def execute (table : WordMem) (m : Machine) : Instruction → Machine
  | .ld1rd d => { m with z := fun e => Function.update (m.z e) d (if p0 e then table (m.x1 / 8) else 0) }
  | .ld1d d => { m with z := fun e => Function.update (m.z e) d (if p0 e then m.state (m.x0 / 8 + e) else 0) }
  | .st1d n => { m with state := fun w =>
      if m.x0 / 8 ≤ w ∧ p0 (w - m.x0 / 8) then m.z (w - m.x0 / 8) n else m.state w }
  | .addX0 imm => { m with x0 := m.x0 + imm }
  | .addX1 imm => { m with x1 := m.x1 + imm }
  | i => { m with z := fun e => element (m.z e) i }

def run (table : WordMem) (program : List Instruction) (m : Machine) : Machine := program.foldl (execute table) m

def thetaStep : List Instruction := [
   .movprfx 25 0, .eor3 25 5 10, .movprfx 26 1, .eor3 26 6 11, .movprfx 27 2, .eor3 27 7 12,
   .movprfx 28 3, .eor3 28 8 13, .movprfx 29 4, .eor3 29 9 14, .eor3 25 15 20, .eor3 26 16 21,
   .eor3 27 17 22, .eor3 28 18 23, .eor3 29 19 24, .mov 30 29, .rax1 30 30 26, .mov 31 27,
   .rax1 31 31 29, .mov 29 31, .mov 31 25, .rax1 31 31 27, .mov 27 31, .mov 31 28, .rax1 31 31 25,
   .mov 25 31, .mov 31 26, .rax1 31 31 28, .mov 28 31, .eor 0 0 30]

def rhoPiStep : List Instruction := [
   .mov 31 1, .movprfx 1 6, .xar 1 27 20, .movprfx 6 9, .xar 6 25 44, .movprfx 9 22, .xar 9 28 3,
   .movprfx 22 14, .xar 22 25 25, .movprfx 14 20, .xar 14 30 46, .movprfx 20 2, .xar 20 28 2,
   .movprfx 2 12, .xar 2 28 21, .movprfx 12 13, .xar 12 29 39, .movprfx 13 19, .xar 13 25 56,
   .movprfx 19 23, .xar 19 29 8, .movprfx 23 15, .xar 23 30 23, .movprfx 15 4, .xar 15 25 37,
   .movprfx 4 24, .xar 4 25 50, .movprfx 24 21, .xar 24 27 62, .movprfx 21 8, .xar 21 29 9,
   .movprfx 8 16, .xar 8 27 19, .movprfx 16 5, .xar 16 30 28, .movprfx 5 3, .xar 5 29 36,
   .movprfx 3 18, .xar 3 29 43, .movprfx 18 17, .xar 18 28 49, .movprfx 17 11, .xar 17 27 54,
   .movprfx 11 7, .xar 11 28 58, .movprfx 7 10, .xar 7 30 61, .movprfx 10 31, .xar 10 27 63]

def chiStep : List Instruction := [
   .movprfx 25 0, .bcax 25 2 1, .movprfx 26 1, .bcax 26 3 2, .bcax 2 4 3, .bcax 3 0 4, .bcax 4 1 0,
   .mov 0 25, .mov 1 26, .movprfx 25 5, .bcax 25 7 6, .movprfx 26 6, .bcax 26 8 7, .bcax 7 9 8,
   .bcax 8 5 9, .bcax 9 6 5, .mov 5 25, .mov 6 26, .movprfx 25 10, .bcax 25 12 11, .movprfx 26 11,
   .bcax 26 13 12, .bcax 12 14 13, .bcax 13 10 14, .bcax 14 11 10, .mov 10 25, .mov 11 26,
   .movprfx 25 15, .bcax 25 17 16, .movprfx 26 16, .bcax 26 18 17, .bcax 17 19 18, .bcax 18 15 19,
   .bcax 19 16 15, .mov 15 25, .mov 16 26, .movprfx 25 20, .bcax 25 22 21, .movprfx 26 21,
   .bcax 26 23 22, .bcax 22 24 23, .bcax 23 20 24, .bcax 24 21 20, .mov 20 25, .mov 21 26]

def iotaStep : List Instruction := [
   .ld1rd 25, .addX1 8, .eor 0 0 25]

def round : List Instruction := thetaStep ++ rhoPiStep ++ chiStep ++ iotaStep

def stateRegs : List Reg := (List.range 24).map (Fin.ofNat 32)

def loadState : List Instruction := stateRegs.flatMap (fun r => [.ld1d r, .addX0 16]) ++ [.ld1d 24]

def storeState : List Instruction := stateRegs.flatMap (fun r => [.st1d r, .addX0 16]) ++ [.st1d 24]

def loop (table : WordMem) : Nat → Machine → Machine
  | 0, m => m
  | x3 + 1, m =>
    let m := run table round m
    if x3 ≠ 0 then loop table x3 m else m

def f1600x2 (table : WordMem) (m : Machine) : Machine :=
  let x2 := m.x0
  let m := loop table 24 (run table loadState m)
  run table storeState { m with x0 := x2 }

def roundConstants : WordMem := fun i => keccakFRoundConstants.getD i 0

end Armor.Keccak.Assembly
