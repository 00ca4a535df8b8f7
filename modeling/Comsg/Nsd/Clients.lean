import Comsg.Ipcd.Validate
import Comsg.Nsd.Handlers

/-!
# `Comsg.Nsd.Clients`: what the clients of nsd hold and send

A client fills in the arguments of a request and makes the call. What it stores in a namespace are
the handles that the other daemons have returned. nsd has no object type in common with them.

* `codropArgs`, `codrop`: the client call `codrop` (`lib/comsg/ukern_calls.c:715-732`).
* `createCoserviceHandle`: `coserviced/coservice_cap.c:78-89`. `provideCoservice` and
  `provideCoservice2` are its callers for `coprovide` and `coprovide2`, with what
  `allocate_coservice` and `allocate_endpoint` return for a free entry.
* `sealCoport`, `coportOpen`: `ipcd/ipcd_cap.c:98-112` and `ipcd/coopen.c:133-156`, with what
  `allocate_coport` returns for a free entry, over ipcd's tables (`Comsg.Ipcd.PortTables`).

The permissions are those of the RISC-V target, which has no `CHERI_PERM_MUTABLE_LOAD`.
-/

set_option autoImplicit false

namespace Comsg.Nsd

open Comsg.Lib

/-! ### `codrop` -/

/-- The arguments of `cocreate` and `codrop` with all their fields. -/
structure CodropArgs extends SpaceArgs where
  childNsCap : NsCap

/-- The arguments that `codrop(ns, parent)` fills in. The others are zero. -/
def codropArgs (ns parent : NsCap) : CodropArgs where
  nsCap := parent
  nsName := List.replicate nsNameLen 0
  nsType := .other 0 (by decide)
  childNsCap := ns

/-- `codrop` as the client calls it. nsd reads the fields of `SpaceArgs`. -/
def Tables.codrop (s : Tables) (ns parent : NsCap) : Option (Tables × Reply) :=
  s.handle (.codrop (codropArgs ns parent).toSpaceArgs)

/-! ### Handles of coserviced -/

/-- `COSERVICE_HANDLE_PERMS`. -/
def coserviceHandlePerms : Perms := permLoad ||| permLoadCap

/-- `COSERVICE_ENDPOINT_HANDLE_PERMS`. -/
def coserviceEndpointHandlePerms : Perms := permGlobal ||| permLoad ||| permLoadCap ||| permStore

/-- `sizeof(coservice_t)` and `sizeof(struct _coservice_endpoint)`. -/
def sizeofCoservice : Nat := chericapSize * 2
def sizeofEndpoint : Nat := chericapSize * 2

/-- `coservice_t`. -/
structure Coservice where
  impl : NsCap
  op : Int
  flags : Int
  deriving DecidableEq

/-- A capability to memory of another daemon that `calloc` has returned, with exact bounds. -/
def daemonPtr (addr length : Nat) : NsCap :=
  ⟨true, some (.client addr), dataPerms, none, length, by simp⟩

/-- `create_coservice_handle`: the handle, and the service after its endpoint was sealed. -/
def createCoserviceHandle (ptr : NsCap) (service : Coservice) : NsCap × Coservice :=
  let service :=
    if service.impl.isSealed = false then
      let impl := { service.impl with length := sizeofEndpoint }
      { service with impl := (impl.andperm coserviceEndpointHandlePerms).sealWith .foreign }
    else service
  ({ ptr.andperm coserviceHandlePerms with length := sizeofCoservice }, service)

/-- `provide_coservice` with the service at `addr` and a new endpoint at `endpoint`. -/
def provideCoservice (addr endpoint : Nat) (flags op : Int) : NsCap :=
  (createCoserviceHandle (daemonPtr addr sizeofCoservice)
    ⟨daemonPtr endpoint sizeofEndpoint, op, flags⟩).1

/-- `provide_coservice2` with the endpoint of the client, which `is_valid_endpoint` accepts if
it has a tag and the object type of coserviced. -/
def provideCoservice2 (addr : Nat) (endpoint : NsCap) (flags op : Int) : Option NsCap :=
  if endpoint.tag = false then none
  else if endpoint.otype ≠ some .foreign then none
  else some (createCoserviceHandle (daemonPtr addr sizeofCoservice) ⟨endpoint, op, flags⟩).1

/-! ### Handles of ipcd -/

/-- `seal_coport`, which exits for other types. -/
def sealCoport (s : Ipcd.PortTables) (c : Ipcd.PortCap) : Option Ipcd.PortCap :=
  if c.otype.isSome = true then some c
  else
    let c := { c with perms := c.perms &&& ~~~permGlobal }
    if c.Loads Ipcd.offsetType Ipcd.sizeofType then do
      let type ← Ipcd.PortTables.getCoportTable (s.mem (c.addr + Ipcd.offsetType))
      some { c with otype := some (.coport type) }
    else none

/-- `coport_open` with entry `i` of the table, after `init_coport`. -/
def coportOpen (s : Ipcd.PortTables) (type : CoportType) (i : Nat) : Option Ipcd.PortCap :=
  sealCoport s {
    tag := true
    otype := none
    base := s.entry type i
    length := Ipcd.sizeofCoport
    addr := s.entry type i
    perms := dataPerms &&& Ipcd.coportPerms }

/-- A capability of ipcd as nsd sees it. -/
def present (c : Ipcd.PortCap) : NsCap where
  tag := c.tag
  target := some (.client c.addr)
  perms := c.perms
  otype := c.otype.map fun _ => .foreign
  length := c.length
  untagged_of_null := by simp

/-- The types and the handles with which a client may fulfil a reservation: what `coprovide`,
`coprovide2` and `coopen` return. -/
inductive ActiveHandle : NsobjectType → NsCap → Prop
  | coprovide (addr endpoint : Nat) (flags op : Int) :
      ActiveHandle .coservice (provideCoservice addr endpoint flags op)
  | coprovide2 (addr : Nat) (endpoint : NsCap) (flags op : Int) (h : NsCap)
      (hprovide : provideCoservice2 addr endpoint flags op = some h) : ActiveHandle .coservice h
  | coopen (s : Ipcd.PortTables) (type : CoportType) (i : Nat) (h : Ipcd.PortCap)
      (hi : i < s.nextCoport type) (hopen : coportOpen s type i = some h) :
      ActiveHandle .coport (present h)

end Comsg.Nsd
