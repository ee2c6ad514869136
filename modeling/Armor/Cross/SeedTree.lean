import Armor.Cross.Shake
import Armor.Cross.TreeWalk

/-! The seed tree: `seedtree.c` in its portable and its SVE2 version. Flags live in a byte
array; seeds live in numbered slots that also record which of them were written. -/
namespace Armor.Cross

namespace SeedTree

def toPublish : UInt8 := 1
def notToPublish : UInt8 := 0

def labelLeaves (t : TreeTables) (flagTree indicesToPublish : Mem) : Mem :=
  leafLoop t (fun node cnt flags => Function.update flags node (indicesToPublish cnt)) flagTree

/-- `flags[par] = (flags[cur] == TO_PUBLISH) && (flags[sib] == TO_PUBLISH)` -/
def bothPublished (cur sib par : Nat) (flags : Mem) : Mem :=
  Function.update flags par (if flags cur = toPublish ∧ flags sib = toPublish then 1 else 0)

def Portable.computeSeedsToPublish (t : TreeTables) (flagsTree indicesToPublish : Mem) : Mem :=
  levelsDown t (fun startNode level flags =>
    Loop.downByTwo (t.npl level) (fun i flags =>
      let currentNode := u16 (startNode + i)
      let parentNode := u16 (parentIndex currentNode + t.off (level - 1) / 2)
      bothPublished currentNode (siblingIndex currentNode) parentNode flags) flags)
    (labelLeaves t flagsTree indicesToPublish)

def Sve2.computeSeedsToPublish (t : TreeTables) (flagsTree indicesToPublish : Mem) : Mem :=
  levelsDown t (fun startNode level flags =>
    let parentAdj := u16 (t.off (level - 1) / 2)
    let numNodes := t.npl level
    let unrolled := Loop.strided 8 0 numNodes (fun i flags =>
      (Loop.strided 2 0 8 (fun k flags =>
        let cur := u16 (startNode + i + k)
        let sib := u16 (siblingIndex cur)
        let par := u16 (parentIndex cur + parentAdj)
        bothPublished cur sib par flags) flags).2) flags
    (Loop.strided 2 unrolled.1 numNodes (fun i flags =>
      let cur := u16 (startNode + i)
      let par := u16 (parentIndex cur + parentAdj)
      bothPublished cur (siblingIndex cur) par flags) unrolled.2).2)
    (labelLeaves t flagsTree indicesToPublish)

variable (p : Parameters) (shake : Shake)

def csprngInput (seed : Block p.seedLength) (salt : Block p.saltLength) : Bytes :=
  seed.toList ++ salt.toList

def nodeDsc (node : Nat) : UInt16 := csprngDomainSepConst + UInt16.ofNat node

def expandNode (salt : Block p.saltLength) (node : Nat) (seed : Block p.seedLength) :
    Block (2 * p.seedLength) :=
  (csprngRandombytes shake (2 * p.seedLength) (csprngInitialize (csprngInput p seed salt) (nodeDsc node))).1

def expandTwo (salt : Block p.saltLength) (node1 node2 : Nat) (seed1 seed2 : Block p.seedLength) :
    Option (Block (2 * p.seedLength)) × Option (Block (2 * p.seedLength)) :=
  (csprngRandombytesPar shake (2 * p.seedLength) (csprngInitializePar 2
    (csprngInput p seed1 salt) (csprngInput p seed2 salt) (nodeDsc node1) (nodeDsc node2))).1

def storePair {len : Nat} (left : Nat) (b : Block (2 * len)) (s : Slots (Block len)) : Slots (Block len) :=
  (s.put left b.fst).put (left + 1) b.snd

def storePairIf {len : Nat} (left : Nat) (b : Option (Block (2 * len))) (s : Slots (Block len)) :
    Slots (Block len) :=
  match b with
  | some b => storePair left b s
  | none => s

def Portable.genSeedTree (seedTree : Slots (Block p.seedLength)) (rootSeed : Block p.seedLength)
    (salt : Block p.saltLength) : Slots (Block p.seedLength) :=
  let t := p.layout.toTreeTables
  fathersUp t (fun startNode level s =>
    Loop.upTo (t.npl level - t.lpl level) (fun nodeInLevel s =>
      let fatherNode := u16 (startNode + nodeInLevel)
      let leftChildNode := u16 (leftChildIndex fatherNode - t.off level)
      storePair leftChildNode (expandNode p shake salt fatherNode (s.cell fatherNode)) s) s)
    (seedTree.put 0 rootSeed)

def Sve2.genSeedTree (seedTree : Slots (Block p.seedLength)) (rootSeed : Block p.seedLength)
    (salt : Block p.saltLength) : Slots (Block p.seedLength) :=
  let t := p.layout.toTreeTables
  fathersUp t (fun startNode level s =>
    let nodesToExpand := t.npl level - t.lpl level
    Loop.paired nodesToExpand (fun nodeInLevel s =>
      let father1 := u16 (startNode + nodeInLevel)
      let father2 := u16 (startNode + nodeInLevel + 1)
      let leftChild1 := u16 (leftChildIndex father1 - t.off level)
      let leftChild2 := u16 (leftChildIndex father2 - t.off level)
      let out := expandTwo p shake salt father1 father2 (s.cell father1) (s.cell father2)
      storePairIf leftChild2 out.2 (storePairIf leftChild1 out.1 s))
      (fun nodeInLevel s =>
        let fatherNode := u16 (startNode + nodeInLevel)
        let leftChildNode := u16 (leftChildIndex fatherNode - t.off level)
        storePair leftChildNode (expandNode p shake salt fatherNode (s.cell fatherNode)) s) s)
    (seedTree.put 0 rootSeed)

def seedLeaves (roundsSeeds : Nat → Block p.seedLength) (seedTree : Nat → Block p.seedLength) :
    Nat → Block p.seedLength :=
  leafLoop p.layout.toTreeTables (fun node cnt out => Function.update out cnt (seedTree node)) roundsSeeds

structure SeedPath where
  storage : Mem
  numSeedsPublished : Nat
  published : List Nat

def seedPath (computeSeedsToPublish : TreeTables → Mem → Mem → Mem) (seedStorage : Mem)
    (seedTree : Nat → Block p.seedLength) (indicesToPublish : Mem) : SeedPath :=
  let t := p.layout.toTreeTables
  let flags := computeSeedsToPublish t (fun _ => notToPublish) indicesToPublish
  let s := levelsUp t (fun startNode level s =>
    Loop.upTo (t.npl level) (fun nodeInLevel s =>
      let currentNode := u16 (startNode + nodeInLevel)
      let fatherNode := u16 (parentIndex currentNode + t.off (level - 1) / 2)
      if flags currentNode = toPublish ∧ flags fatherNode = notToPublish then
        (Mem.append (seedTree currentNode) s.1, s.2 ++ [currentNode])
      else s) s)
    ((seedStorage, 0), [])
  ⟨s.1.1, s.1.2, s.2⟩

def paddingError (buffer : Mem) (lo hi : Nat) : UInt8 :=
  Loop.upTo (hi - lo) (fun i error => error ||| buffer (lo + i)) 0

structure RebuiltTree where
  restoring : LinTree.Restoring (Block p.seedLength)
  accepted : Bool

def loadSeed (flags storedSeeds : Mem) (node father : Nat)
    (s : LinTree.Restoring (Block p.seedLength)) : LinTree.Restoring (Block p.seedLength) :=
  if flags node = toPublish ∧ flags father = notToPublish then
    { nodes := s.nodes.put node (storedSeeds.slot p.seedLength s.used), used := s.used + 1,
      loads := node :: s.loads }
  else s

def expandPublished (flags : Mem) (salt : Block p.saltLength) (level node nodeInLevel : Nat)
    (s : LinTree.Restoring (Block p.seedLength)) : LinTree.Restoring (Block p.seedLength) :=
  let t := p.layout.toTreeTables
  if flags node = toPublish ∧ nodeInLevel < t.npl level - t.lpl level then
    { s with
      nodes := storePair (u16 (leftChildIndex node - t.off level))
        (expandNode p shake salt node (s.nodes.cell node)) s.nodes }
  else s

def paddingClear (storedSeeds : Mem) (used len : Nat) : Bool :=
  paddingError storedSeeds (used * len) (p.treeNodesToStore * len) == 0

def Portable.rebuildTree (seedTree : Slots (Block p.seedLength)) (indicesToPublish storedSeeds : Mem)
    (salt : Block p.saltLength) : RebuiltTree p :=
  let t := p.layout.toTreeTables
  let flags := Portable.computeSeedsToPublish t (fun _ => notToPublish) indicesToPublish
  let s := levelsUp t (fun startNode level s =>
    Loop.upTo (t.npl level) (fun nodeInLevel s =>
      let currentNode := u16 (startNode + nodeInLevel)
      let fatherNode := u16 (parentIndex currentNode + t.off (level - 1) / 2)
      let s := loadSeed p flags storedSeeds currentNode fatherNode s
      expandPublished p shake flags salt level currentNode nodeInLevel s) s)
    ⟨seedTree, 0, []⟩
  ⟨s, paddingClear p storedSeeds s.used p.seedLength⟩

def Sve2.rebuildTree (seedTree : Slots (Block p.seedLength)) (indicesToPublish storedSeeds : Mem)
    (salt : Block p.saltLength) : RebuiltTree p :=
  let t := p.layout.toTreeTables
  let flags := Sve2.computeSeedsToPublish t (fun _ => notToPublish) indicesToPublish
  let s := levelsUp t (fun startNode level s =>
    let expandLimit := t.npl level - t.lpl level
    Loop.paired (t.npl level) (fun nodeInLevel s =>
      let curr1 := u16 (startNode + nodeInLevel)
      let curr2 := u16 (startNode + nodeInLevel + 1)
      let father1 := u16 (parentIndex curr1 + t.off (level - 1) / 2)
      let father2 := u16 (parentIndex curr2 + t.off (level - 1) / 2)
      let s := loadSeed p flags storedSeeds curr2 father2 (loadSeed p flags storedSeeds curr1 father1 s)
      if (flags curr1 = toPublish ∧ nodeInLevel < expandLimit) ∧
          (flags curr2 = toPublish ∧ nodeInLevel + 1 < expandLimit) then
        let left1 := u16 (leftChildIndex curr1 - t.off level)
        let left2 := u16 (leftChildIndex curr2 - t.off level)
        let out := expandTwo p shake salt curr1 curr2 (s.nodes.cell curr1) (s.nodes.cell curr2)
        { s with nodes := storePairIf left2 out.2 (storePairIf left1 out.1 s.nodes) }
      else
        expandPublished p shake flags salt level curr2 (nodeInLevel + 1)
          (expandPublished p shake flags salt level curr1 nodeInLevel s))
      (fun nodeInLevel s =>
        let curr := u16 (startNode + nodeInLevel)
        let father := u16 (parentIndex curr + t.off (level - 1) / 2)
        expandPublished p shake flags salt level curr nodeInLevel
          (loadSeed p flags storedSeeds curr father s)) s)
    ⟨seedTree, 0, []⟩
  ⟨s, paddingClear p storedSeeds s.used p.seedLength⟩

end SeedTree
end Armor.Cross
