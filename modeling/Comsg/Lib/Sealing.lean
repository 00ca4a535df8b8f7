import Comsg.Lib.Bounded

/-!
# `Comsg.Lib.Sealing`: sealing with numbered object types

An object type is a number, the address of the capability that seals with it. `cheriSeal` and
`cheriUnseal` ask for a permission each, and for an address within the bounds. `none` stands for an
exception.

`objectType root k` are the two capabilities for the object type `k` that are made from `root`. What
one pair seals, another one unseals only if it is for the same object type
(`cheriUnseal_cheriSeal`).
-/

set_option autoImplicit false

namespace Comsg.Lib

/-- The permission bits of `cherireg.h` for seals. -/
def permSeal : Perms := BitVec.twoPow 32 7
def permUnseal : Perms := BitVec.twoPow 32 9

namespace Cheri

/-- A capability. An object type is the address of the capability that seals with it. -/
abbrev Word := BoundedCap Nat

/-- The capability seals with its address as the object type. -/
def CanSeal (ct : Word) : Prop :=
  ct.tag = true ∧ ct.otype = none ∧ Meets ct.perms permSeal ∧ ct.base ≤ ct.addr ∧
    ct.addr < ct.base + ct.length

instance (ct : Word) : Decidable (CanSeal ct) := inferInstanceAs (Decidable (_ ∧ _))

/-- `cseal` of `c` with `ct` succeeds. -/
def Seals (c ct : Word) : Prop := c.tag = true ∧ c.otype = none ∧ CanSeal ct

instance (c ct : Word) : Decidable (Seals c ct) := inferInstanceAs (Decidable (_ ∧ _))

/-- `cunseal` of `c` with `ct` succeeds. -/
def Unseals (c ct : Word) : Prop :=
  c.tag = true ∧ c.otype = some ct.addr ∧ ct.tag = true ∧ ct.otype = none ∧
    Meets ct.perms permUnseal ∧ ct.base ≤ ct.addr ∧ ct.addr < ct.base + ct.length

instance (c ct : Word) : Decidable (Unseals c ct) := inferInstanceAs (Decidable (_ ∧ _))

/-- `cheri_seal`. -/
def cheriSeal (c ct : Word) : Option Word :=
  if Seals c ct then some { c with otype := some ct.addr } else none

/-- `cheri_unseal`. The result is global only if `ct` is, too. -/
def cheriUnseal (c ct : Word) : Option Word :=
  if Unseals c ct then
    if Meets ct.perms permGlobal then some c.unsealed
    else some { c.unsealed with perms := c.perms &&& ~~~permGlobal }
  else none

/-- `cheri_gettype`. -/
def gettype (c : Word) : Int := c.otype.elim (-1) (fun ot => ot)

/-- `cheri_incoffset` of a capability without a seal, within its bounds. -/
def incoffset (c : Word) (n : Nat) : Word := { c with addr := c.addr + n }

/-- `cheri_setoffset`, in the same way. -/
def setoffset (c : Word) (n : Nat) : Word := { c with addr := c.base + n }

/-- `cheri_andperm`. -/
def andperm (c : Word) (mask : Perms) : Word := { c with perms := c.perms &&& mask }

/-- `cheri_clearperm`. -/
def clearperm (c : Word) (mask : Perms) : Word := { c with perms := c.perms &&& ~~~mask }

/-- `cheri_setbounds` and `cheri_setboundsexact`. Bounds of a few bytes are always exact. -/
def setbounds (c : Word) (n : Nat) : Option Word :=
  if c.tag = true ∧ c.otype = none ∧ c.base ≤ c.addr ∧ c.addr + n ≤ c.base + c.length then
    some { c with base := c.addr, length := n }
  else none

/-- A capability for the object type `k` alone, with those of the permissions of `root` that `mask`
keeps. -/
def typeCap (root : Word) (k : Nat) (mask : Perms) : Word where
  tag := true
  otype := none
  base := k
  length := 1
  addr := k
  perms := root.perms &&& mask

section
variable {root c ct : Word} {n k l : Nat}

theorem setbounds_eq (htag : c.tag = true) (hseal : c.otype = none) (hbase : c.base ≤ c.addr)
    (hlength : c.addr + n ≤ c.base + c.length) :
    setbounds c n = some { c with base := c.addr, length := n } :=
  if_pos ⟨htag, hseal, hbase, hlength⟩

/-- A global capability makes global ones. -/
theorem meets_and_of_meets_twoPow {a mask : Perms} {i : Nat} (ha : Meets a (BitVec.twoPow 32 i))
    (hmask : Meets mask (BitVec.twoPow 32 i)) : Meets (a &&& mask) (BitVec.twoPow 32 i) := by
  rw [meets_twoPow] at ha hmask ⊢
  rw [BitVec.getLsbD_and, ha, hmask]
  rfl

/-- Sealing succeeds for each capability without a seal. -/
theorem cheriSeal_typeCap (htag : c.tag = true) (hseal : c.otype = none)
    (hroot : Meets root.perms permSeal) :
    cheriSeal c (typeCap root k (permGlobal ||| permSeal)) = some { c with otype := some k } := by
  have hperms : Meets (root.perms &&& (permGlobal ||| permSeal)) permSeal :=
    meets_and_of_meets_twoPow hroot (by decide)
  exact if_pos ⟨htag, hseal, rfl, rfl, hperms, le_refl k, Nat.lt_succ_self k⟩

/-- A capability for another object type does not unseal. -/
theorem cheriUnseal_typeCap_of_ne {mask : Perms} (hne : c.otype ≠ some l) :
    cheriUnseal c (typeCap root l mask) = none :=
  if_neg fun h => hne h.2.1

/-- The capability for the object type unseals, and takes away no permission. -/
theorem cheriUnseal_typeCap (htag : c.tag = true) (hseal : c.otype = some k)
    (hroot : Meets root.perms permUnseal) (hglobal : Meets root.perms permGlobal) :
    cheriUnseal c (typeCap root k (permGlobal ||| permUnseal)) = some c.unsealed := by
  have hperms : Meets (root.perms &&& (permGlobal ||| permUnseal)) permUnseal :=
    meets_and_of_meets_twoPow hroot (by decide)
  have hkept : Meets (root.perms &&& (permGlobal ||| permUnseal)) permGlobal :=
    meets_and_of_meets_twoPow hglobal (by decide)
  have hunseals : Unseals c (typeCap root k (permGlobal ||| permUnseal)) :=
    ⟨htag, hseal, rfl, rfl, hperms, le_refl k, Nat.lt_succ_self k⟩
  rw [cheriUnseal, if_pos hunseals]
  exact if_pos hkept

/-- What is sealed for one object type is unsealed for the same one only. -/
theorem cheriUnseal_cheriSeal (htag : c.tag = true) (hseal : c.otype = none)
    (hs : Meets root.perms permSeal) (hu : Meets root.perms permUnseal)
    (hg : Meets root.perms permGlobal) :
    ((cheriSeal c (typeCap root k (permGlobal ||| permSeal))).bind fun c' =>
        cheriUnseal c' (typeCap root l (permGlobal ||| permUnseal))) =
      if k = l then some c else none := by
  have hback : BoundedCap.unsealed { c with otype := some k } = c := by
    cases c
    cases hseal
    rfl
  rw [cheriSeal_typeCap htag hseal hs, Option.bind_some]
  by_cases h : k = l
  · subst h
    have hopen := cheriUnseal_typeCap (c := { c with otype := some k }) htag rfl hu hg
    rw [if_pos rfl, hopen, hback]
  · have hne : ({ c with otype := some k } : Word).otype ≠ some l := fun heq =>
      h (Option.some.inj heq)
    rw [if_neg h, cheriUnseal_typeCap_of_ne hne]

end

end Cheri

end Comsg.Lib
