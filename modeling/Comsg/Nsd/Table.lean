import Comsg.Include.Namespace

/-!
# `Comsg.Nsd.Table`: nsd's tables, capabilities and lookups

nsd keeps all namespaces and all namespace objects in two tables. An entry is never used a
second time. A namespace lists its objects and its child namespaces, the newest first. Clients
hold capabilities to entries, sealed or not.

* `NsCap` and the functions on it: `nsd_cap.c`.
* `inNsTable`, `inNsobjectTable`, `allocateNsobject`, `allocateNamespace`: `namespace_table.c`.
* `lookupNsobject`, `lookupNamespace`, `inNamespace`, `isChildNamespace`: `nsd_lookup.c`.

A capability names an entry by its index in the table, and its address is the base of its
bounds. The object types that `make_otypes` sets up are distinct. `none` stands for a fault of
nsd, a failed assertion or `err`: nsd is gone then.
-/

set_option autoImplicit false

namespace Comsg.Nsd

open Comsg.Lib

/-- What a capability may point to: a namespace, an object, or memory that is not nsd's. -/
inductive Target
  | ns (i : Nat)
  | nsobj (i : Nat)
  | client (addr : Nat)
  deriving DecidableEq, Repr

/-- The object types: nsd's own and those of others. -/
inductive Otype
  | rootNscap
  | appNscap
  | privateNscap
  | publicNscap
  | libraryNscap
  | reservationNsobj
  | coserviceNsobj
  | coportNsobj
  | commapNsobj
  | foreign
  deriving DecidableEq, Repr

/-- A capability as a client presents it, or as nsd holds it. -/
abbrev NsCap := Cap Target Otype

/-- `namespace_t` and its `struct _ns_members`. -/
structure Namespace where
  name : List UInt8
  type : NsType
  parent : NsCap
  objects : List Nat
  namespaces : List Nat
  deriving DecidableEq

/-- `nsobject_t`. -/
structure Nsobject where
  name : List UInt8
  type : NsobjectType
  obj : NsCap
  deriving DecidableEq

/-- nsd's tables. The root namespace is entry 0. -/
structure Tables where
  namespaces : List Namespace
  nsobjects : List Nsobject
  maxNamespaces : Nat
  maxNsobjects : Nat
  deriving DecidableEq

def sizeofNamespace : Nat := chericapSize * 8
def sizeofNsobject : Nat := chericapSize * 8

/-! ### Sealing -/

/-- `ns_otype_to_type`. -/
def nsOtypeToType : Otype → NsType
  | .rootNscap    => .root
  | .appNscap     => .application
  | .privateNscap => .private_
  | .publicNscap  => .public_
  | .libraryNscap => .library
  | _             => .invalidNs

/-- `nsobj_otype_to_type`. -/
def nsobjOtypeToType : Otype → NsobjectType
  | .coportNsobj      => .coport
  | .coserviceNsobj   => .coservice
  | .commapNsobj      => .commap
  | .reservationNsobj => .reservation
  | _                 => .invalidNsobj

/-- `get_ns_sealcap`, which exits for other types. -/
def getNsSealcap : NsType → Option Otype
  | .root        => some .rootNscap
  | .application => some .appNscap
  | .private_    => some .privateNscap
  | .public_     => some .publicNscap
  | .library     => some .libraryNscap
  | _            => none

/-- `get_nsobj_sealcap`, which exits for other types. -/
def getNsobjSealcap : NsobjectType → Option Otype
  | .commap      => some .commapNsobj
  | .coport      => some .coportNsobj
  | .coservice   => some .coserviceNsobj
  | .reservation => some .reservationNsobj
  | _            => none

/-- `unseal_ns`. It exits when the capability has one of nsd's seals and no tag. -/
def unsealNs (c : NsCap) : Option NsCap :=
  match c.otype with
  | none => some c
  | some ot =>
    if nsOtypeToType ot = .invalidNs then some .null
    else if c.tag = false then none
    else some c.unsealed

/-- `unseal_nsobj`. -/
def unsealNsobj (c : NsCap) : NsCap :=
  match c.otype with
  | none => c
  | some ot => if nsobjOtypeToType ot = .invalidNsobj then .null else c.unsealed

namespace Tables

/-! ### Access to the tables -/

/-- The namespace under a capability. -/
def ns (s : Tables) (c : NsCap) : Option (Nat × Namespace) :=
  match c.load with
  | some (.ns i) => s.namespaces[i]?.map (i, ·)
  | _            => none

/-- The namespace under `unseal_ns` of a capability, for a caller that follows its pointers. A
pointer that is loaded without `CHERI_PERM_LOAD_CAP` has no tag. -/
def openNs (s : Tables) (c : NsCap) : Option (Nat × Namespace) := do
  let c ← unsealNs c
  if Meets c.perms permLoadCap then s.ns c else none

/-- The object under a capability. -/
def nsobj (s : Tables) (c : NsCap) : Option (Nat × Nsobject) :=
  match c.load with
  | some (.nsobj i) => s.nsobjects[i]?.map (i, ·)
  | _               => none

/-- nsd's own capability to a namespace. -/
def nsPtr (i : Nat) : NsCap := ⟨true, some (.ns i), dataPerms, none, sizeofNamespace, by simp⟩

/-- nsd's own capability to an object. -/
def nsobjPtr (i : Nat) : NsCap := ⟨true, some (.nsobj i), dataPerms, none, sizeofNsobject, by simp⟩

/-- `in_ns_table`. -/
def inNsTable (s : Tables) (c : NsCap) : Bool :=
  match c.target with
  | some (.ns i) => i < s.namespaces.length
  | _            => false

/-- `in_nsobject_table`. -/
def inNsobjectTable (s : Tables) (c : NsCap) : Bool :=
  match c.target with
  | some (.nsobj i) => i < s.nsobjects.length
  | _               => false

/-- `get_ns_type`. -/
def getNsType (s : Tables) (c : NsCap) : Option NsType :=
  match c.otype with
  | none    => (s.ns c).map fun p => p.2.type
  | some ot => some (nsOtypeToType ot)

/-- `get_nsobject_type`. -/
def getNsobjectType (s : Tables) (c : NsCap) : Option NsobjectType :=
  match c.otype with
  | none    => (s.nsobj c).map fun p => p.2.type
  | some ot => some (nsobjOtypeToType ot)

/-- `valid_namespace_cap`. -/
def validNamespaceCap (s : Tables) (c : NsCap) : Option Bool :=
  if c.tag = false then some false
  else if c.length < sizeofNamespace then some false
  else if s.inNsTable c = false then some false
  else (s.getNsType c).map fun type => type ≠ .invalidNs

/-- `valid_nsobject_cap`. -/
def validNsobjectCap (s : Tables) (c : NsCap) : Option Bool :=
  if c.tag = false then some false
  else if c.length < sizeofNsobject then some false
  else if s.inNsobjectTable c = false then some false
  else (s.getNsobjectType c).map fun type => type ≠ .invalidNsobj

/-- `seal_ns` on a capability that is not sealed. -/
def sealNs (s : Tables) (c : NsCap) : Option NsCap := do
  let (_, space) ← s.ns c
  if space.type = .invalidNs then some .null
  else (getNsSealcap space.type).map c.sealWith

/-- `seal_nsobj` on a capability that is not sealed. -/
def sealNsobj (s : Tables) (c : NsCap) : Option NsCap := do
  let (_, object) ← s.nsobj c
  if object.type = .invalidNsobj then some .null
  else (getNsobjSealcap object.type).map c.sealWith

/-! ### Lookups -/

/-- The name of object `i` is `name`, as `strncmp` over `NS_NAME_LEN` bytes sees it. -/
def objectNamed (s : Tables) (name : List UInt8) (i : Nat) : Bool :=
  (s.nsobjects[i]?.map fun o => strncmpEq nsNameLen o.name name).getD false

/-- The name of namespace `i` is `name`. -/
def namespaceNamed (s : Tables) (name : List UInt8) (i : Nat) : Bool :=
  (s.namespaces[i]?.map fun n => strncmpEq nsNameLen n.name name).getD false

/-- `lookup_nsobject`: `NULL` or the capability of the first object with that name. -/
def lookupNsobject (s : Tables) (name : List UInt8) (type : NsobjectType) (c : NsCap) :
    Option NsCap := do
  let (_, space) ← s.openNs c
  match space.objects.find? (s.objectNamed name) with
  | none   => some .null
  | some i =>
    let o ← s.nsobjects[i]?
    if o.type ≠ type then some .null
    else if o.type ≠ .reservation ∧ o.obj.target = none then some .null
    else some (nsobjPtr i)

/-- `lookup_namespace`: `NULL` or nsd's capability to the child with that name. -/
def lookupNamespace (s : Tables) (name : List UInt8) (c : NsCap) : Option NsCap := do
  let (_, space) ← s.openNs c
  match space.namespaces.find? (s.namespaceNamed name) with
  | none   => some .null
  | some i => some (nsPtr i)

/-- `in_namespace`. -/
def inNamespace (s : Tables) (name : List UInt8) (c : NsCap) : Option Bool := do
  let (_, space) ← s.openNs c
  some (space.objects.any (s.objectNamed name) || space.namespaces.any (s.namespaceNamed name))

/-- `is_child_namespace`. -/
def isChildNamespace (s : Tables) (name : List UInt8) (c : NsCap) : Option Bool := do
  let (_, space) ← s.openNs c
  some (space.namespaces.any (s.namespaceNamed name))

/-! ### New entries -/

/-- `allocate_nsobject`: a new entry at the head of the object list of the parent. The entry is
behind the end of a table that is full, and nsd faults. -/
def allocateNsobject (s : Tables) (parent : NsCap) (o : Nsobject) : Option (Tables × Nat) := do
  let i := s.nsobjects.length
  if s.maxNsobjects ≤ i then none
  else
    let (p, _) ← s.openNs parent
    some ({ s with
      nsobjects := s.nsobjects ++ [o]
      namespaces := s.namespaces.modify p fun n => { n with objects := i :: n.objects } }, i)

/-- `allocate_namespace` below a parent. -/
def allocateNamespace (s : Tables) (parent : NsCap) (n : Namespace) : Option (Tables × Nat) := do
  let i := s.namespaces.length
  if s.maxNamespaces ≤ i then none
  else
    let (p, _) ← s.openNs parent
    some ({ s with
      namespaces := s.namespaces.modify p (fun m => { m with namespaces := i :: m.namespaces })
        ++ [n] }, i)

end Tables

end Comsg.Nsd
