import Armor.Cross.SeedTree

/-! The Merkle tree over the round commitments: `merkle.c` in its portable and its SVE2
version. The reader also records each hash call with the source of both halves of its input. -/
namespace Armor.Cross

namespace Merkle

def challengeProofValue : UInt8 := 0
def notComputed : UInt8 := 0
def computed : UInt8 := 1

variable (p : Parameters) (shake : Shake)

abbrev Digests := Nat → Block p.hashLength

def placeCmtOnLeaves (merkleTree commitments : Digests p) : Digests p :=
  leafLoop p.layout.toTreeTables (fun node cnt tree => Function.update tree node (commitments cnt)) merkleTree

def labelLeaves (t : TreeTables) (flagTree challenge : Mem) : Mem :=
  leafLoop t (fun node cnt flags =>
    if challenge cnt = challengeProofValue then Function.update flags node computed else flags) flagTree

def hashNodes (left right : Block p.hashLength) : Block p.hashLength :=
  hash p shake (left.toList ++ right.toList) hashDomainSepConst

def storeIf (node : Nat) (digest : Option (Block p.hashLength)) (tree : Digests p) : Digests p :=
  match digest with
  | some digest => Function.update tree node digest
  | none => tree

def Portable.treeRoot (tree leaves : Digests p) : Block p.hashLength × Digests p :=
  let t := p.layout.toTreeTables
  let tree := levelsDown t (fun startNode level tree =>
    Loop.downByTwo (t.npl level) (fun i tree =>
      let currentNode := u16 (startNode + i)
      let parentNode := u16 (parentIndex currentNode + t.off (level - 1) / 2)
      Function.update tree parentNode (hashNodes p shake (tree currentNode) (tree (currentNode + 1)))) tree)
    (placeCmtOnLeaves p tree leaves)
  (tree 0, tree)

def Sve2.treeRoot (tree leaves : Digests p) : Block p.hashLength × Digests p :=
  let t := p.layout.toTreeTables
  let tree := levelsDown t (fun startNode level tree =>
    Loop.pairedDown
      (fun i tree =>
        let currentNode1 := u16 (startNode + i)
        let parentNode1 := u16 (parentIndex currentNode1 + t.off (level - 1) / 2)
        let currentNode2 := u16 (startNode + (i - 2))
        let parentNode2 := u16 (parentIndex currentNode2 + t.off (level - 1) / 2)
        let digests := hashPar p shake 2
          ((tree currentNode1).toList ++ (tree (currentNode1 + 1)).toList)
          ((tree currentNode2).toList ++ (tree (currentNode2 + 1)).toList)
          hashDomainSepConst hashDomainSepConst
        storeIf p parentNode2 digests.2 (storeIf p parentNode1 digests.1 tree))
      (fun i tree =>
        let currentNode := u16 (startNode + i)
        let parentNode := u16 (parentIndex currentNode + t.off (level - 1) / 2)
        Function.update tree parentNode (hashNodes p shake (tree currentNode) (tree (currentNode + 1))))
      (t.npl level) tree)
    (placeCmtOnLeaves p tree leaves)
  (tree 0, tree)

structure TreeProof where
  mtp : Mem
  published : Nat
  nodes : List Nat

def publishSibling (tree : Digests p) (currentNode parentNode : Nat) (s : Mem × (Mem × Nat) × List Nat) :
    Mem × (Mem × Nat) × List Nat :=
  let sibling := siblingIndex currentNode
  let flags := Function.update s.1 parentNode
    (if s.1 currentNode = computed ∨ s.1 sibling = computed then 1 else 0)
  let out := if flags currentNode = notComputed ∧ flags sibling = computed then
    (Mem.append (tree currentNode) s.2.1, s.2.2 ++ [currentNode]) else s.2
  let out := if flags currentNode = computed ∧ flags sibling = notComputed then
    (Mem.append (tree sibling) out.1, out.2 ++ [sibling]) else out
  (flags, out)

def treeProof (mtp : Mem) (tree : Digests p) (leavesToReveal : Mem) : TreeProof :=
  let t := p.layout.toTreeTables
  let s := levelsDown t (fun startNode level s =>
    Loop.downByTwo (t.npl level) (fun i s =>
      let currentNode := u16 (startNode + i)
      let parentNode := u16 (parentIndex currentNode + t.off (level - 1) / 2)
      publishSibling p tree currentNode parentNode s) s)
    (labelLeaves t (fun _ => notComputed) leavesToReveal, (mtp, 0), [])
  ⟨s.2.1.1, s.2.1.2, s.2.2⟩

structure Recompute where
  tree : Digests p
  flagTree : Mem
  published : Nat
  calls : List (LinTree.HashCall (Block p.hashLength))

def takeNode (mtp : Mem) (target : Nat) (s : Recompute p) :
    LinTree.Half (Block p.hashLength) × Recompute p :=
  if s.flagTree target = computed then (⟨.tree target, s.tree target⟩, s)
  else (⟨.proof s.published, mtp.slot p.hashLength s.published⟩, { s with published := s.published + 1 })

def storeDigest (parent : Nat) (left right : LinTree.Half (Block p.hashLength))
    (digest : Option (Block p.hashLength)) (s : Recompute p) : Recompute p :=
  { s with
    tree := storeIf p parent digest s.tree
    flagTree := Function.update s.flagTree parent computed
    calls := ⟨parent, left, right⟩ :: s.calls }

def hashPairInto (mtp : Mem) (node parent : Nat) (s : Recompute p) : Recompute p :=
  let first := takeNode p mtp node s
  let second := takeNode p mtp (siblingIndex node) first.2
  storeDigest p parent first.1 second.1 (some (hashNodes p shake first.1.value second.1.value)) second.2

structure RecomputedRoot where
  root : Block p.hashLength
  accepted : Bool
  state : Recompute p

def Portable.recomputeRoot (tree recomputedLeaves : Digests p) (mtp leavesToReveal : Mem) :
    RecomputedRoot p :=
  let t := p.layout.toTreeTables
  let s := levelsDown t (fun startNode level s =>
    Loop.downByTwo (t.npl level) (fun i s =>
      let currentNode := u16 (startNode + i)
      let parentNode := u16 (parentIndex currentNode + t.off (level - 1) / 2)
      if s.flagTree currentNode = notComputed ∧ s.flagTree (siblingIndex currentNode) = notComputed then s
      else hashPairInto p shake mtp currentNode parentNode s) s)
    ⟨placeCmtOnLeaves p tree recomputedLeaves, labelLeaves t (fun _ => notComputed) leavesToReveal, 0, []⟩
  ⟨s.tree 0, SeedTree.paddingClear p mtp s.published p.hashLength, s⟩

def needed (node : Nat) (s : Recompute p) : Bool :=
  s.flagTree node = computed ∨ s.flagTree (siblingIndex node) = computed

def Sve2.recomputeRoot (tree recomputedLeaves : Digests p) (mtp leavesToReveal : Mem) :
    RecomputedRoot p :=
  let t := p.layout.toTreeTables
  let s := levelsDown t (fun startNode level s =>
    Loop.attemptDown
      (fun i s => needed p (u16 (startNode + i)) s && needed p (u16 (startNode + (i - 2))) s)
      (fun i s =>
        let node1 := u16 (startNode + i)
        let node2 := u16 (startNode + (i - 2))
        let parent1 := u16 (parentIndex node1 + t.off (level - 1) / 2)
        let parent2 := u16 (parentIndex node2 + t.off (level - 1) / 2)
        let left1 := takeNode p mtp node1 s
        let right1 := takeNode p mtp (u16 (siblingIndex node1)) left1.2
        let left2 := takeNode p mtp node2 right1.2
        let right2 := takeNode p mtp (u16 (siblingIndex node2)) left2.2
        let digests := hashPar p shake 2 (left1.1.value.toList ++ right1.1.value.toList)
          (left2.1.value.toList ++ right2.1.value.toList) hashDomainSepConst hashDomainSepConst
        storeDigest p parent2 left2.1 right2.1 digests.2
          (storeDigest p parent1 left1.1 right1.1 digests.1 right2.2))
      (fun i s =>
        let currentNode := u16 (startNode + i)
        let parentNode := u16 (parentIndex currentNode + t.off (level - 1) / 2)
        if needed p currentNode s then hashPairInto p shake mtp currentNode parentNode s else s)
      (t.npl level) s)
    ⟨placeCmtOnLeaves p tree recomputedLeaves, labelLeaves t (fun _ => notComputed) leavesToReveal, 0, []⟩
  ⟨s.tree 0, SeedTree.paddingClear p mtp s.published p.hashLength, s⟩

end Merkle
end Armor.Cross
