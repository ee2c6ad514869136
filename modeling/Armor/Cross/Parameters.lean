import Armor.Cross.TreeLayout

/-! The parameter sets of the three balanced instances. `P` and `Z`
are common to all of them; every other constant is a field, and the fields
carry the relations between constants that the code relies on. -/
namespace Armor.Cross

def P : Nat := 509
def Z : Nat := 127
def csprngDomainSepConst : UInt16 := 0
def hashDomainSepConst : UInt16 := 32768

def roundUp (amount roundAmt : Nat) : Nat := (amount + roundAmt - 1) / roundAmt * roundAmt

def isRepresentableInDBits (d n : Nat) : Int := if n ≥ 2 ^ (d - 1) ∧ n < 2 ^ d then d else -1

def bitsToRepresent (n : Nat) : Nat :=
  if n = 0 then 1
  else (15 + ((List.range 16).map fun d => isRepresentableInDBits (d + 1) n).sum).toNat

def log2 (l : Nat) : Nat :=
  if bitsToRepresent l > bitsToRepresent (l - 1) then bitsToRepresent (l - 1) else bitsToRepresent l

structure Parameters where
  secMarginLambda : Nat
  n : Nat
  k : Nat
  m : Nat
  w : Nat
  layout : TreeLayout
  treeNodesToStore : Nat
  bitsNFpCtRng : Nat
  bitsChall1FpstarCtRng : Nat
  bitsVCtRng : Nat
  bitsWCtRng : Nat
  bitsMFzCtRng : Nat
  bitsCwstrRng : Nat
  logLeaves : layout.logT = log2 layout.leaves
  weightBelow : w < layout.leaves
  capacity : layout.leaves ≤ 2 * treeNodesToStore ∨
    ((∀ level < layout.logT, layout.lpl level = 0) ∧
      layout.leaves - w + layout.leaves / 4 ≤ treeNodesToStore)
  rowsInside : k ≤ n
  roundsFit : layout.leaves ≤ 512
  lazySum : 508 + k * (508 * 508) < 2 ^ 25
  lastFold : m % 4 ≤ 1

namespace Parameters

variable (p : Parameters)

abbrev t : Nat := p.layout.leaves
abbrev seedLength : Nat := p.secMarginLambda / 8
abbrev keypairSeedLength : Nat := 2 * (p.secMarginLambda / 8)
abbrev hashLength : Nat := 2 * (p.secMarginLambda / 8)
abbrev saltLength : Nat := 2 * (p.secMarginLambda / 8)
def denselyPackedFpVecSize : Nat :=
  p.n / 8 * bitsToRepresent (P - 1) + roundUp (p.n % 8 * bitsToRepresent (P - 1)) 8 / 8
def denselyPackedFpSynSize : Nat :=
  (p.n - p.k) / 8 * bitsToRepresent (P - 1) + roundUp ((p.n - p.k) % 8 * bitsToRepresent (P - 1)) 8 / 8
def denselyPackedFzRsdpGVecSize : Nat :=
  p.m / 8 * bitsToRepresent (Z - 1) + roundUp (p.m % 8 * bitsToRepresent (Z - 1)) 8 / 8

end Parameters

def layout1 : TreeLayout where
  leaves := 256
  logT := 8
  offsets := [0, 0, 0, 0, 0, 0, 0, 0, 0]
  nodesPerLevel := [1, 2, 4, 8, 16, 32, 64, 128, 256]
  leavesPerLevel := [0, 0, 0, 0, 0, 0, 0, 0, 256]
  leavesStartIndices := [255]
  consecutiveLeaves := [256]
  rootLevel := by decide
  widths := by decide
  lastLevel := by decide
  offsetsMatch := by decide
  total := by decide
  small := by decide
  runs := by decide
  sameLength := by decide
  allLeaves := by decide
  paired := by decide

def layout3 : TreeLayout where
  leaves := 268
  logT := 9
  offsets := [0, 0, 0, 0, 0, 8, 24, 24, 24, 24]
  nodesPerLevel := [1, 2, 4, 8, 16, 24, 32, 64, 128, 256]
  leavesPerLevel := [0, 0, 0, 0, 4, 8, 0, 0, 0, 256]
  leavesStartIndices := [279, 47, 27]
  consecutiveLeaves := [256, 8, 4]
  rootLevel := by decide
  widths := by decide
  lastLevel := by decide
  offsetsMatch := by decide
  total := by decide
  small := by decide
  runs := by decide
  sameLength := by decide
  allLeaves := by decide
  paired := by decide

def layout5 : TreeLayout where
  leaves := 356
  logT := 9
  offsets := [0, 0, 0, 0, 0, 0, 8, 8, 8, 200]
  nodesPerLevel := [1, 2, 4, 8, 16, 32, 56, 112, 224, 256]
  leavesPerLevel := [0, 0, 0, 0, 0, 4, 0, 0, 96, 256]
  leavesStartIndices := [455, 359, 59]
  consecutiveLeaves := [256, 96, 4]
  rootLevel := by decide
  widths := by decide
  lastLevel := by decide
  offsetsMatch := by decide
  total := by decide
  small := by decide
  runs := by decide
  sameLength := by decide
  allLeaves := by decide
  paired := by decide

def category1 : Parameters where
  secMarginLambda := 128
  n := 55
  k := 36
  m := 25
  w := 220
  layout := layout1
  treeNodesToStore := 101
  bitsNFpCtRng := 729
  bitsChall1FpstarCtRng := 2682
  bitsVCtRng := 6624
  bitsWCtRng := 5677
  bitsMFzCtRng := 343
  bitsCwstrRng := 4776
  logLeaves := by decide
  weightBelow := by decide
  capacity := by decide
  rowsInside := by decide
  roundsFit := by decide
  lazySum := by decide
  lastFold := by decide

def category3 : Parameters where
  secMarginLambda := 192
  n := 79
  k := 48
  m := 40
  w := 196
  layout := layout3
  treeNodesToStore := 138
  bitsNFpCtRng := 1071
  bitsChall1FpstarCtRng := 2925
  bitsVCtRng := 14211
  bitsWCtRng := 11655
  bitsMFzCtRng := 539
  bitsCwstrRng := 6444
  logLeaves := by decide
  weightBelow := by decide
  capacity := by decide
  rowsInside := by decide
  roundsFit := by decide
  lazySum := by decide
  lastFold := by decide

def category5 : Parameters where
  secMarginLambda := 256
  n := 106
  k := 69
  m := 48
  w := 258
  layout := layout5
  treeNodesToStore := 185
  bitsNFpCtRng := 1431
  bitsChall1FpstarCtRng := 3897
  bitsVCtRng := 24192
  bitsWCtRng := 20594
  bitsMFzCtRng := 679
  bitsCwstrRng := 8937
  logLeaves := by decide
  weightBelow := by decide
  capacity := by decide
  rowsInside := by decide
  roundsFit := by decide
  lazySum := by decide
  lastFold := by decide

inductive Category where
  | one
  | three
  | five
deriving DecidableEq, Repr

def Category.parameters : Category → Parameters
  | .one => category1
  | .three => category3
  | .five => category5

end Armor.Cross
