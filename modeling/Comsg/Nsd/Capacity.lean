import Comsg.Nsd.Handlers

/-!
# `Comsg.Nsd.Capacity`: nsd's tables with their counters

`Comsg.Nsd.Table` takes the next free entry from the length of a table. Here are the counters that
nsd keeps, the flag that it sets when a table is full, and the members without an entry that it
then links.

* `newEntry`: `new_namespace_entry` and `new_nsobject_entry` (`namespace_table.c:98-158`).
* `allocateNsobject`, `allocateNamespace`: `namespace_table.c:160-196`.
* `newNsobject`, `newNamespace`: `nsd_crud.c:128-178`.

Once the flag of a table is set, every further member has no entry. A list gets its members at the
head, so those without an entry are before the others, and it is enough to count them. A walk
through such a list follows the `NULL` in its first member.

A fault brings nsd down. `Fault.entry i` is the access to entry `i` of a table that has no such
entry, and `Fault.other` is any other fault.
-/

set_option autoImplicit false

namespace Comsg.Nsd

open Comsg.Lib

inductive Fault
  | entry (index : Nat)
  | other
  deriving DecidableEq, Repr

/-- A step of `Comsg.Nsd.Handlers`, with its fault. -/
def orFault {α : Type} : Option α → Except Fault α
  | some a => .ok a
  | none   => .error .other

/-- `namespace_table` and `nsobject_table`: the next entry, the entries in use, and `full`. -/
structure EntryTable where
  next : Nat
  count : Nat
  full : Bool
  deriving DecidableEq, Repr

/-- `new_namespace_entry` and `new_nsobject_entry`: `NULL`, or the entry that it has cleared. -/
def EntryTable.newEntry (t : EntryTable) (max : Nat) : Except Fault (EntryTable × Option Nat) :=
  if t.full = true then .ok (t, none)
  else
    let index := t.next
    let t := { t with next := t.next + 1, full := decide (max ≤ index) }
    -- The flag is set, but the entry is taken all the same.
    if index < max then .ok ({ t with count := t.count + 1 }, some index) else .error (.entry index)

/-- nsd's tables with their counters. `nobjects` and `nspaces` are those of `struct _ns_members`,
and `nullObjects` and `nullSpaces` count the members without an entry, for each namespace. -/
structure Counted where
  tables : Tables
  namespaceTable : EntryTable
  nsobjectTable : EntryTable
  nobjects : Nat → Nat
  nspaces : Nat → Nat
  nullObjects : Nat → Nat
  nullSpaces : Nat → Nat

/-- One more at `p`. -/
def bump (f : Nat → Nat) (p : Nat) : Nat → Nat := Function.update f p (f p + 1)

namespace Counted

/-! ### Lookups -/

/-- A walk through the objects of a namespace gets past the members without an entry. -/
def walkObjects (c : Counted) (ns : NsCap) : Except Fault Unit := do
  let (p, _) ← orFault (c.tables.openNs ns)
  if c.nullObjects p = 0 then .ok () else .error .other

/-- A walk through the child namespaces. -/
def walkNamespaces (c : Counted) (ns : NsCap) : Except Fault Unit := do
  let (p, _) ← orFault (c.tables.openNs ns)
  if c.nullSpaces p = 0 then .ok () else .error .other

/-- `lookup_nsobject`. -/
def lookupNsobject (c : Counted) (name : List UInt8) (type : NsobjectType) (ns : NsCap) :
    Except Fault NsCap := do
  c.walkObjects ns
  orFault (c.tables.lookupNsobject name type ns)

/-- `lookup_namespace`. -/
def lookupNamespace (c : Counted) (name : List UInt8) (ns : NsCap) : Except Fault NsCap := do
  c.walkNamespaces ns
  orFault (c.tables.lookupNamespace name ns)

/-- `in_namespace`, which walks the namespaces when no object has the name. -/
def inNamespace (c : Counted) (name : List UInt8) (ns : NsCap) : Except Fault Bool := do
  c.walkObjects ns
  let (_, space) ← orFault (c.tables.openNs ns)
  if space.objects.any (c.tables.objectNamed name) = true then .ok true
  else
    c.walkNamespaces ns
    orFault (c.tables.inNamespace name ns)

/-! ### New entries -/

/-- `allocate_nsobject`: the member is linked and counted, also when it has no entry. -/
def allocateNsobject (c : Counted) (parent : NsCap) (o : Nsobject) :
    Except Fault (Counted × Option Nat) := do
  let (t, entry) ← c.nsobjectTable.newEntry c.tables.maxNsobjects
  let (p, _) ← orFault (c.tables.openNs parent)
  let c := { c with nsobjectTable := t, nobjects := bump c.nobjects p }
  match entry with
  | none   => .ok ({ c with nullObjects := bump c.nullObjects p }, none)
  | some i =>
    .ok ({ c with
      tables := { c.tables with
        nsobjects := c.tables.nsobjects ++ [o]
        namespaces := c.tables.namespaces.modify p fun n =>
          { n with objects := i :: n.objects } } }, some i)

/-- `allocate_namespace` below a parent. -/
def allocateNamespace (c : Counted) (parent : NsCap) (n : Namespace) :
    Except Fault (Counted × Option Nat) := do
  let (t, entry) ← c.namespaceTable.newEntry c.tables.maxNamespaces
  let (p, _) ← orFault (c.tables.openNs parent)
  let c := { c with namespaceTable := t, nspaces := bump c.nspaces p }
  match entry with
  | none   => .ok ({ c with nullSpaces := bump c.nullSpaces p }, none)
  | some i =>
    .ok ({ c with
      tables := { c.tables with
        namespaces := c.tables.namespaces.modify p (fun m =>
          { m with namespaces := i :: m.namespaces }) ++ [n] } }, some i)

/-! ### `coinsert` -/

/-- `validate_nsobjcreate_params`. -/
def validateNsobjcreateParams (c : Counted) (name : List UInt8) (type : NsobjectType)
    (parent : NsCap) : Except Fault Bool := do
  if (← orFault (c.tables.validNamespaceCap parent)) = false then .ok false
  else if validNsName name = false then .ok false
  else if validNsobjType type = false then .ok false
  else if ¬Meets parent.perms nsPermWr then .ok false
  else .ok ((← c.lookupNsobject name type parent).target = none)

/-- `new_nsobject`: `NULL` or the owner's capability to a new object. -/
def newNsobject (c : Counted) (name : List UInt8) (type : NsobjectType) (parent : NsCap) :
    Except Fault (Counted × NsCap) := do
  if (← c.validateNsobjcreateParams name type parent) = false then .ok (c, .null)
  else
    let (c', entry) ← c.allocateNsobject parent ⟨strncpy nsNameLen name, type, .null⟩
    match entry with
    | none   => .ok (c', .null)
    | some i => .ok (c', (Tables.nsobjPtr i).andperm nsobjPermsOwnMask)

/-- `namespace_object_insert`. -/
def namespaceObjectInsert (c : Counted) (args : ObjectArgs) : Except Fault (Counted × Reply) := do
  if ¬Meets args.nsCap.perms nsPermWr then .ok (c, .err .eacces)
  else if (← c.inNamespace args.nsobjName args.nsCap) = true then .ok (c, .err .eexist)
  else
    let (c', obj) ← c.newNsobject args.nsobjName args.nsobjType args.nsCap
    match args.nsobjType with
    | .commap | .coservice | .coport =>
      let (i, _) ← orFault (c'.tables.nsobj obj)
      .ok ({ c' with tables := c'.tables.setObj i args.obj }, .ok (obj.clearperm nsobjPermW))
    | .reservation =>
      let (i, _) ← orFault (c'.tables.nsobj obj)
      let cap ← orFault (c'.tables.sealNsobj obj)
      .ok ({ c' with tables := c'.tables.setObj i .null }, .ok cap)
    | _ => .ok (c', .ok obj)

/-! ### `cocreate` -/

/-- `new_namespace` below a parent: `NULL` or the owner's sealed capability. -/
def newNamespace (c : Counted) (name : List UInt8) (type : NsType) (parent : NsCap) :
    Except Fault (Counted × NsCap) := do
  if (← orFault (c.tables.validateNscreateParams parent type name)) = false then .ok (c, .null)
  else
    let unsealed ← orFault (unsealNs parent)
    let parentCap ← orFault (c.tables.sealNs (unsealed.andperm nsPermsObjMask))
    let (c', entry) ← c.allocateNamespace parent ⟨strncpy nsNameLen name, type, parentCap, [], []⟩
    match entry with
    | none   => .ok (c', .null)
    | some i =>
      let cap ← orFault (c'.tables.sealNs ((Tables.nsPtr i).andperm nsPermsOwnMask))
      .ok (c', cap)

/-- `namespace_create`. -/
def namespaceCreate (c : Counted) (args : SpaceArgs) : Except Fault (Counted × Reply) := do
  if ¬Meets args.nsCap.perms nsPermWr then .ok (c, .err .eacces)
  else
    let child ← c.lookupNamespace args.nsName args.nsCap
    if child.target ≠ none then
      let (_, reply) ← orFault (c.tables.namespaceCreate args)
      .ok (c, reply)
    else
      let (c', childCap) ← c.newNamespace args.nsName args.nsType args.nsCap
      .ok (c', .ok childCap)

/-! ### The daemon -/

/-- The other requests, which make no entries. -/
def others (c : Counted) (answer : Option (Tables × Reply)) : Except Fault (Counted × Reply) := do
  let (s, reply) ← orFault answer
  .ok ({ c with tables := s }, reply)

/-- `namespace_object_delete`. `nsobject_deleted` counts the object off. -/
def namespaceObjectDelete (c : Counted) (args : ObjectArgs) : Except Fault (Counted × Reply) := do
  if ¬Meets args.nsobj.perms nsobjPermD then .ok (c, .err .eacces)
  else
    c.walkObjects args.nsCap
    let (c', reply) ← c.others (c.tables.namespaceObjectDelete args)
    if reply.isOk = true then
      let t := c'.nsobjectTable
      .ok ({ c' with nsobjectTable := { t with count := t.count - 1 } }, reply)
    else .ok (c', reply)

/-- `namespace_drop`. -/
def namespaceDrop (c : Counted) (args : SpaceArgs) : Except Fault (Counted × Reply) := do
  if ¬Meets args.nsCap.perms nsPermsOwn then .ok (c, .err .eacces)
  else
    let (_, space) ← orFault (c.tables.openNs args.nsCap)
    c.walkNamespaces space.parent
    if (← orFault (c.tables.isChildNamespace space.name space.parent)) = false then
      .ok (c, .err .enoent)
    else
      c.walkNamespaces args.nsCap
      c.others (c.tables.namespaceDrop args)

/-- The validator of the request, and its handler if that succeeds. -/
def validated (c : Counted) (valid : Option Bool) (handler : Except Fault (Counted × Reply)) :
    Except Fault (Counted × Reply) := do
  if (← orFault valid) = false then .ok (c, .err .einval) else handler

/-- One request. -/
def handle (c : Counted) : Request → Except Fault (Counted × Reply)
  | .coinsert args =>
    c.validated (c.tables.validateCoinsertArgs args) (c.namespaceObjectInsert args)
  | .coselect args => c.validated (c.tables.validateCoselectArgs args) (do
    c.walkObjects args.nsCap
    c.others (c.tables.namespaceObjectSelect args))
  | .codelete args =>
    c.validated (c.tables.validateCodeleteArgs args) (c.namespaceObjectDelete args)
  | .coupdate args => c.others (c.tables.handle (.coupdate args))
  | .cocreate args => c.validated (c.tables.validateCocreateArgs args) (c.namespaceCreate args)
  | .codrop args => c.validated (c.tables.validateCodropArgs args) (c.namespaceDrop args)

/-- The tables after a request that is answered. -/
def step (c : Counted) (r : Request) : Option Counted :=
  match c.handle r with
  | .ok (c', _) => some c'
  | .error _    => none

end Counted

/-- nsd when it begins to serve, with the entries of `initTables`. -/
def initCounted (maxNamespaces maxNsobjects : Nat)
    (handles : List UInt8 → Option { handle : NsCap // handle.tag = true }) : Counted where
  tables := initTables maxNamespaces maxNsobjects handles
  namespaceTable := ⟨1, 1, false⟩
  nsobjectTable := ⟨serviceNames.length, serviceNames.length, false⟩
  nobjects := Function.update (fun _ => 0) 0 serviceNames.length
  nspaces _ := 0
  nullObjects _ := 0
  nullSpaces _ := 0

end Comsg.Nsd
