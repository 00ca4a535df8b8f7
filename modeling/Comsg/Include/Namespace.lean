import Comsg.Include.Coport
import Comsg.Lib.Capability
import Comsg.Lib.Cstring

/-!
# `Comsg.Include.Namespace`: namespaces and namespace objects

The types and constants of `include/comsg/namespace.h` and `include/comsg/namespace_object.h`,
and the name check of `lib/comsg/namespace.c`. The enumerations arrive in requests as plain
integers, so both have a case for the other values.
-/

set_option autoImplicit false

namespace Comsg

open Comsg.Lib

/-- `nstype_t`. -/
inductive NsType
  | invalidNs
  | root
  | application
  | private_
  | public_
  | library
  | other (value : Int) (h : value ∉ [-1, 1, 2, 4, 8, 16])
  deriving DecidableEq

/-- `nsobject_type_t`. -/
inductive NsobjectType
  | invalidNsobj
  | reservation
  | commap
  | coport
  | coservice
  | other (value : Int) (h : value ∉ [-1, 0, 1, 2, 4])
  deriving DecidableEq

/-- The integer of an object type. -/
def NsobjectType.toInt : NsobjectType → Int
  | .invalidNsobj  => -1
  | .reservation   => 0
  | .commap        => 1
  | .coport        => 2
  | .coservice     => 4
  | .other value _ => value

/-- `VALID_NS_TYPE`. -/
def validNsType : NsType → Bool
  | .root | .application | .private_ | .public_ | .library => true
  | _ => false

/-- `VALID_NSOBJ_TYPE`. -/
def validNsobjType : NsobjectType → Bool
  | .reservation | .commap | .coport | .coservice => true
  | _ => false

/-- `last_nsobj_type`. -/
def lastNsobjType : NsobjectType := .coservice

/-- `NS_NAME_LEN`: what `parent`, `members` and `type` leave of the space of eight
capabilities. -/
def nsNameLen : Nat := chericapSize * 8 - (chericapSize * 2 + 4)

/-- The name in a `char[NS_NAME_LEN]`. -/
abbrev nsName (name : List UInt8) : List UInt8 := cstr nsNameLen name

/-- `isalnum` in the C locale, and the three other characters a name may have. -/
def nameChar (c : UInt8) : Bool :=
  (48 ≤ c && c ≤ 57) || (65 ≤ c && c ≤ 90) || (97 ≤ c && c ≤ 122) || c = 45 || c = 95 || c = 46

/-- `valid_ns_name`, and `valid_nsobj_name`, which calls it. The array is part of the arguments,
so its capability is tagged. -/
def validNsName (name : List UInt8) : Bool := !(nsName name).isEmpty && (nsName name).all nameChar

/-! ### Permissions -/

def nsPermRo : Perms := permSw2
def nsPermWr : Perms := permSw3
def nsPermsOwn : Perms := permSw2 ||| permSw3
def nsPermsMask : Perms := permGlobal ||| permLoad ||| permLoadCap
def nsPermsWrMask : Perms := nsPermsMask ||| nsPermWr
def nsPermsOwnMask : Perms := nsPermsMask ||| nsPermsOwn
def nsPermsObjMask : Perms := nsPermsMask

def nsobjPermR : Perms := permLoadCap
def nsobjPermW : Perms := permStore ||| permStoreCap ||| permStoreLocalCap
def nsobjPermD : Perms := permSw2
def nsobjPermOwn : Perms := nsobjPermW ||| nsobjPermD ||| nsobjPermR
def nsobjPermsMask : Perms := permGlobal ||| permLoad
def nsobjPermsOwnMask : Perms := nsobjPermsMask ||| nsobjPermOwn

/-- What the memory of `calloc` grants: all data and software-defined permissions. -/
def dataPerms : Perms :=
  permGlobal ||| permLoad ||| permStore ||| permLoadCap ||| permStoreCap ||| permStoreLocalCap |||
    permSw0 ||| permSw1 ||| permSw2 ||| permSw3

end Comsg
