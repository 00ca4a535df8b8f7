import Comsg.Lib.Capability

/-!
# `Comsg.Lib.Bounded`: capabilities with bounds

A capability with an address and bounds, which may be sealed with an object type of type `ω`. The
bounds are `base` up to `base + length`. A load through the capability needs a tag, no seal, the
load permission, and bytes that are within the bounds.
-/

set_option autoImplicit false

namespace Comsg.Lib

/-- A capability with bounds. `otype` is `none` while it is not sealed. -/
structure BoundedCap (ω : Type) where
  tag : Bool
  otype : Option ω
  base : Nat
  length : Nat
  addr : Nat
  perms : Perms
  deriving DecidableEq

namespace BoundedCap

variable {ω : Type}

/-- `NULL`. Its bounds are the whole address space, which is one more than the length can say. -/
def null : BoundedCap ω := ⟨false, none, 0, 2 ^ 64 - 1, 0, 0⟩

/-- `cheri_unseal` with the object type of the capability. -/
def unsealed (c : BoundedCap ω) : BoundedCap ω := { c with otype := none }

/-- The capability without its tag. -/
def untagged (c : BoundedCap ω) : BoundedCap ω := { c with tag := false }

/-- The permission and the bounds allow a load of `size` bytes at `offset` from the address. -/
def Spans (c : BoundedCap ω) (offset size : Nat) : Prop :=
  Meets c.perms permLoad ∧ c.base ≤ c.addr + offset ∧
    c.addr + offset + size ≤ c.base + c.length

/-- A load of `size` bytes at `offset` from the address succeeds. -/
def Loads (c : BoundedCap ω) (offset size : Nat) : Prop :=
  c.tag = true ∧ c.otype.isNone = true ∧ c.Spans offset size

instance (c : BoundedCap ω) (offset size : Nat) : Decidable (c.Spans offset size) :=
  inferInstanceAs (Decidable (_ ∧ _))

instance (c : BoundedCap ω) (offset size : Nat) : Decidable (c.Loads offset size) :=
  inferInstanceAs (Decidable (_ ∧ _))

end BoundedCap

end Comsg.Lib
