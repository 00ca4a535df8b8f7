import Comsg.Lib.Mask

/-!
# `Comsg.Lib.Capability`: capabilities with permissions and seals

A capability names a target of type `τ`, carries permission bits, and may be sealed with an
object type of type `ω`. The capability without a target is `NULL`, and it is never tagged.
Clearing permissions, sealing and unsealing leave the target alone. A load needs a tagged,
unsealed capability with the load permission, and a store of a capability one with the store
permissions.
-/

set_option autoImplicit false

namespace Comsg.Lib

abbrev Perms := BitVec 32

/-- The permission bits of `cherireg.h`. -/
def permGlobal : Perms := BitVec.twoPow 32 0
def permLoad : Perms := BitVec.twoPow 32 2
def permStore : Perms := BitVec.twoPow 32 3
def permLoadCap : Perms := BitVec.twoPow 32 4
def permStoreCap : Perms := BitVec.twoPow 32 5
def permStoreLocalCap : Perms := BitVec.twoPow 32 6
def permSw0 : Perms := BitVec.twoPow 32 15
def permSw1 : Perms := BitVec.twoPow 32 16
def permSw2 : Perms := BitVec.twoPow 32 17
def permSw3 : Perms := BitVec.twoPow 32 18

/-- A capability. `otype` is `none` while it is not sealed. -/
structure Cap (τ ω : Type) where
  tag : Bool
  target : Option τ
  perms : Perms
  otype : Option ω
  length : Nat
  untagged_of_null : target = none → tag = false
  deriving DecidableEq

namespace Cap

variable {τ ω α : Type}

/-- `NULL`. -/
def null : Cap τ ω := ⟨false, none, 0, none, 0, fun _ => rfl⟩

/-- `cheri_getsealed`. -/
def isSealed (c : Cap τ ω) : Bool := c.otype.isSome

/-- `cheri_andperm`. -/
def andperm (c : Cap τ ω) (mask : Perms) : Cap τ ω := { c with perms := c.perms &&& mask }

/-- `cheri_clearperm`. -/
def clearperm (c : Cap τ ω) (mask : Perms) : Cap τ ω := { c with perms := c.perms &&& ~~~mask }

/-- `cheri_seal` with the object type `ot`. -/
def sealWith (c : Cap τ ω) (ot : ω) : Cap τ ω := { c with otype := some ot }

/-- `cheri_unseal` with the object type of the capability. -/
def unsealed (c : Cap τ ω) : Cap τ ω := { c with otype := none }

/-- A store of the capability `v` through the capability is permitted. A tag is stored with a
permission of its own, and so is a capability that is not global. -/
def StoresCap (c v : Cap τ ω) : Prop :=
  Meets c.perms permStore ∧ (v.tag = true → Meets c.perms permStoreCap ∧
    (Meets v.perms permGlobal ∨ Meets c.perms permStoreLocalCap))

instance (c v : Cap τ ω) : Decidable (c.StoresCap v) := inferInstanceAs (Decidable (_ ∧ _))

/-- A load through the capability: the target, where it may be read. -/
def load (c : Cap τ ω) : Option τ :=
  if c.tag = true ∧ c.otype.isNone = true ∧ Meets c.perms permLoad then c.target else none

theorem load_eq_some {c : Cap τ ω} {t : τ} : c.load = some t ↔
    c.tag = true ∧ c.otype = none ∧ Meets c.perms permLoad ∧ c.target = some t := by
  simp [load, and_assoc]

end Cap

end Comsg.Lib
