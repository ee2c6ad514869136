import Armor.Cross.Parameters

/-! The extendable-output function as the CROSS code sees it: `csprng_hash.h` over an
arbitrary function from absorbed bytes, bytes already squeezed and bytes wanted to bytes.
The two-lane entry points are two independent uses of that function. -/
namespace Armor.Cross

abbrev Shake := Bytes → Nat → (n : Nat) → Block n

structure CsprngState where
  absorbed : Bytes
  squeezed : Nat
deriving DecidableEq

def dscOrdered (dsc : UInt16) : Bytes := [(dsc &&& 0xff).toUInt8, ((dsc >>> 8) &&& 0xff).toUInt8]

/-- `xof_shake_update` takes its length as an `unsigned int`. -/
def shakeUpdate (m : Bytes) : Bytes := m.take (m.length % 2 ^ 32)

def csprngInitialize (seed : Bytes) (dsc : UInt16) : CsprngState :=
  ⟨shakeUpdate seed ++ dscOrdered dsc, 0⟩

def csprngRandombytes (shake : Shake) (n : Nat) (s : CsprngState) : Block n × CsprngState :=
  (shake s.absorbed s.squeezed n, { s with squeezed := s.squeezed + n })

structure ParCsprngState where
  lane1 : Option CsprngState
  lane2 : Option CsprngState

def csprngInitializePar (parLevel : Nat) (seed1 seed2 : Bytes) (dsc1 dsc2 : UInt16) : ParCsprngState :=
  if parLevel = 1 then ⟨some (csprngInitialize seed1 dsc1), none⟩
  else if parLevel = 2 then ⟨some (csprngInitialize seed1 dsc1), some (csprngInitialize seed2 dsc2)⟩
  else ⟨none, none⟩

/-- The outputs written, `none` where the call leaves the buffer alone. -/
def csprngRandombytesPar (shake : Shake) (n : Nat) (s : ParCsprngState) :
    (Option (Block n) × Option (Block n)) × ParCsprngState :=
  let one := s.lane1.map (csprngRandombytes shake n)
  let two := s.lane2.map (csprngRandombytes shake n)
  ((one.map Prod.fst, two.map Prod.fst), ⟨one.map Prod.snd, two.map Prod.snd⟩)

variable (p : Parameters) (shake : Shake)

def hash (m : Bytes) (dsc : UInt16) : Block p.hashLength :=
  (csprngRandombytes shake p.hashLength (csprngInitialize m dsc)).1

def hashPar (parLevel : Nat) (m1 m2 : Bytes) (dsc1 dsc2 : UInt16) :
    Option (Block p.hashLength) × Option (Block p.hashLength) :=
  (csprngRandombytesPar shake p.hashLength (csprngInitializePar parLevel m1 m2 dsc1 dsc2)).1

@[simp] theorem hashParTwo (m1 m2 : Bytes) (dsc1 dsc2 : UInt16) :
    hashPar p shake 2 m1 m2 dsc1 dsc2 = (some (hash p shake m1 dsc1), some (hash p shake m2 dsc2)) := rfl

end Armor.Cross
