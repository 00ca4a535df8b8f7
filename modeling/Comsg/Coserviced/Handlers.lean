import Comsg.Coserviced.Table
import Comsg.Libcomsg.Coservice
import Comsg.Libcomsg.UkernCalls
import Comsg.Nsd.Clients

/-!
# `Comsg.Coserviced.Handlers`: the requests coserviced serves

Each request has a validator and a handler. A request whose validator fails is answered with
`EINVAL` (`coaccept_handler` in `include/cocall/endpoint.h`).

* `allocate`: `allocate_coservice` and `allocate_endpoint` (`coservice_table.c:86-120`), with the
  steps of `Tables.advance` one after the other.
* `inTable`: `in_table` (`coservice_table.c:139-144`).
* `isValidEndpoint`, `createCoserviceHandle`, `unsealEndpoint`, `getServiceEndpoint`:
  `coservice_cap.c`.
* `getCoserviceScb`: `get_coservice_scb` (`lib/comsg/coservice.c`) through a capability.
* The validators and handlers: `codiscover.c`, `codiscover2.c`, `coprovide.c`, `coprovide2.c`.
* `initService`, `coservicedStartup`: `coserviced_setup.c`.

`none` stands for a fault: coserviced is gone then. The requests are handled one at a time, and
what a client passes by reference does not change meanwhile.

Capabilities come with bounds. A request holds what memory has behind the capabilities in it.
coserviced's own memory are the two tables. An `impl` is a handle to an entry of the endpoint table
or `NULL`, so no other endpoint is read.
-/

set_option autoImplicit false

namespace Comsg.Coserviced

open Comsg.Lib
open Comsg.Libcomsg (Endpoint CocallNum coserviceMaxWorkers)
open Comsg.Nsd (sizeofCoservice sizeofEndpoint sizeofNsobject coserviceHandlePerms
  coserviceEndpointHandlePerms)

/-- The object types: `coservice_otype`, and those of others. -/
inductive SealType
  | coservice
  | foreign
  deriving DecidableEq, Repr

/-- A capability, with bounds. -/
abbrev ServiceCap := BoundedCap SealType

/-- `coservice_t`. -/
structure Coservice where
  impl : ServiceCap
  op : Int
  flags : Int
  deriving DecidableEq

/-- Where the tables are. `calloc` has returned them. -/
structure Layout where
  services : Nat
  endpoints : Nat
  services_pos : 0 < services
  services_aligned : services % chericapSize = 0

/-- coserviced: the counters of the tables, and their entries. -/
structure Daemon where
  counters : Tables
  services : Nat → Coservice
  endpoints : Nat → Endpoint ServiceCap

/-- Entries after `memset`. -/
def emptyService : Coservice := ⟨.null, 0, 0⟩
def emptyEndpoint : Endpoint ServiceCap := ⟨[], 0, 0⟩

/-- Where `nworkers` and `next_worker` are in a `struct _coservice_endpoint`, and where `type` is
in an `nsobject_t`. -/
def offsetNextWorker : Nat := chericapSize + 4
def offsetType : Nat := chericapSize + nsNameLen
def sizeofInt : Nat := 4

namespace Layout

/-- The addresses of entries. -/
def service (l : Layout) (i : Nat) : Nat := l.services + i * sizeofCoservice
def endpoint (l : Layout) (j : Nat) : Nat := l.endpoints + j * sizeofEndpoint

/-- What `allocate_coservice` and `allocate_endpoint` return. -/
def servicePtr (l : Layout) (i : Nat) : ServiceCap :=
  ⟨true, none, l.service i, sizeofCoservice, l.service i, dataPerms⟩
def endpointPtr (l : Layout) (j : Nat) : ServiceCap :=
  ⟨true, none, l.endpoint j, sizeofEndpoint, l.endpoint j, dataPerms⟩

/-- The address is within the capability to the table of coservices. -/
def InTable (l : Layout) (addr : Nat) : Prop :=
  l.services ≤ addr ∧ addr < l.services + maxServices * sizeofCoservice

instance (l : Layout) (addr : Nat) : Decidable (l.InTable addr) :=
  inferInstanceAs (Decidable (_ ∧ _))

/-- `in_table`. -/
def inTable (l : Layout) (c : ServiceCap) : Bool := l.InTable c.addr

end Layout

/-! ### Capabilities -/

/-- A capability that was loaded from memory. Without `CHERI_PERM_LOAD_CAP` it has no tag. -/
def loaded (c v : ServiceCap) : ServiceCap := if Meets c.perms permLoadCap then v else v.untagged

/-- The load of a capability at `offset` succeeds. The address has to be aligned. -/
def LoadsCap (c : ServiceCap) (offset : Nat) : Prop :=
  c.Loads offset chericapSize ∧ (c.addr + offset) % chericapSize = 0

instance (c : ServiceCap) (offset : Nat) : Decidable (LoadsCap c offset) :=
  inferInstanceAs (Decidable (_ ∧ _))

/-- `is_valid_endpoint`. -/
def isValidEndpoint (ep : ServiceCap) : Bool := ep.tag && decide (ep.otype = some .coservice)

/-- `create_coservice_handle`: the handle, and the service after its endpoint was sealed. -/
def createCoserviceHandle (ptr : ServiceCap) (service : Coservice) : ServiceCap × Coservice :=
  let service :=
    if service.impl.otype.isNone then
      { service with impl := { service.impl with
          base := service.impl.addr
          length := sizeofEndpoint
          perms := service.impl.perms &&& coserviceEndpointHandlePerms
          otype := some .coservice } }
    else service
  ({ ptr with
      base := ptr.addr
      length := sizeofCoservice
      perms := ptr.perms &&& coserviceHandlePerms }, service)

/-- `unseal_endpoint`. -/
def unsealEndpoint (ep : ServiceCap) : ServiceCap :=
  match ep.otype with
  | none            => ep
  | some .coservice => ep.unsealed
  | some .foreign   => .null

namespace Daemon

def setService (s : Daemon) (i : Nat) (service : Coservice) : Daemon :=
  { s with services := Function.update s.services i service }

def setEndpoint (s : Daemon) (j : Nat) (e : Endpoint ServiceCap) : Daemon :=
  { s with endpoints := Function.update s.endpoints j e }

/-- The load of `service->impl`, for an address in the table. An entry has `op` and `flags` behind
`impl`, which are no capability. -/
def loadImpl (l : Layout) (s : Daemon) (service : ServiceCap) : Option ServiceCap :=
  let offset := service.addr - l.services
  if LoadsCap service 0 then
    some (loaded service
      (if offset % sizeofCoservice = 0 then (s.services (offset / sizeofCoservice)).impl
       else .null))
  else none

/-- `get_service_endpoint`. -/
def getServiceEndpoint (l : Layout) (s : Daemon) (service : ServiceCap) : Option ServiceCap :=
  (s.loadImpl l service).map unsealEndpoint

/-- The endpoint that a capability gives access to, up to `next_worker`, which is stored to. -/
def derefEndpoint (l : Layout) (ep : ServiceCap) : Option Nat :=
  let offset := ep.addr - l.endpoints
  if ep.Loads 0 (offsetNextWorker + sizeofInt) ∧ Meets ep.perms permStore ∧
      Meets ep.perms permLoadCap ∧ l.endpoints ≤ ep.addr ∧ offset % sizeofEndpoint = 0 then
    some (offset / sizeofEndpoint)
  else none

/-- `get_coservice_scb`. -/
def getCoserviceScb (l : Layout) (s : Daemon) (ep : ServiceCap) :
    Option (Daemon × ServiceCap) := do
  let j ← derefEndpoint l ep
  let (e, index) ← (s.endpoints j).finish 3 .entry
  let scb ← e.getCoserviceScb index
  some (s.setEndpoint j e, scb)

/-- `get_coservice_scb(get_service_endpoint(service))`. -/
def discover (l : Layout) (s : Daemon) (service : ServiceCap) :
    Option (Daemon × ServiceCap) := do
  s.getCoserviceScb l (← s.getServiceEndpoint l service)

/-! ### Allocation -/

/-- The steps of a call that nobody interrupts. -/
def runAlloc (a : Allocator) : Nat → Tables → AllocPc → Tables × Option Nat
  | _, t, .returned index => (t, index)
  | 0, t, _               => (t, none)
  | fuel + 1, t, pc       =>
    match t.advance a pc with
    | some (t', pc') => runAlloc a fuel t' pc'
    | none           => (t, none)

/-- `allocate_coservice` and `allocate_endpoint`. A call has two steps at most. -/
def allocate (s : Daemon) (a : Allocator) : Daemon × Option Nat :=
  match runAlloc a 2 s.counters .entry with
  | (t, none)   => ({ s with counters := t }, none)
  | (t, some i) =>
    match a with
    | .coservice => ({ s with counters := t }.setService i emptyService, some i)
    | .endpoint  => ({ s with counters := t }.setEndpoint i emptyEndpoint, some i)

end Daemon

/-! ### The arguments -/

/-- The `nsobject_t` of a `codiscover`: the capability to it, and its fields. -/
structure NsobjArg where
  cap : ServiceCap
  coservice : ServiceCap
  type : Int

/-- The array of a `coprovide`: the capability to it, and the capability in each entry. -/
structure ScbArray where
  cap : ServiceCap
  scb : Nat → ServiceCap

/-- A request. `calloc` says whether the copy of the array gets memory. -/
inductive Request
  | codiscover (nsobj : NsobjArg)
  | codiscover2 (coservice : ServiceCap)
  | coprovide (nworkers : Int) (workerScbs : ScbArray) (flags op : Int) (calloc : Bool)
  | coprovide2 (endpoint : ServiceCap) (flags op : Int)

/-- The answer: status 0 with the service and the SCB in the arguments, or status -1 with the
error. -/
inductive Reply
  | ok (service : ServiceCap) (scbCap : Option ServiceCap)
  | err (error : Errno)
  deriving DecidableEq

namespace Daemon

/-! ### `codiscover` and `codiscover2` -/

/-- `validate_codiscover_args`. The first load is before the tests. -/
def validateCodiscoverArgs (l : Layout) (obj : NsobjArg) : Option Bool :=
  if LoadsCap obj.cap 0 then
    let serviceHandle := loaded obj.cap obj.coservice
    -- `obj == NULL` compares addresses. A load through `NULL` has faulted before.
    if obj.cap.addr = 0 then some false
    else if obj.cap.otype.isSome then some false
    else if obj.cap.Loads offsetType sizeofInt then
      if obj.type ≠ NsobjectType.coservice.toInt then some false
      else if obj.cap.length < sizeofNsobject then some false
      else if serviceHandle.length < sizeofCoservice then some false
      else some (l.inTable serviceHandle)
    else none
  else none

/-- `discover_coservice`. -/
def discoverCoservice (l : Layout) (s : Daemon) (obj : NsobjArg) :
    Option (Daemon × Reply) := do
  if LoadsCap obj.cap 0 then
    let service := loaded obj.cap obj.coservice
    let (s, scb) ← s.discover l service
    some (s, .ok service (some scb))
  else none

/-- `validate_codiscover2_args`. -/
def validateCodiscover2Args (l : Layout) (serviceHandle : ServiceCap) : Bool :=
  if serviceHandle.addr = 0 then false
  else if serviceHandle.otype.isSome then false
  else if serviceHandle.length < sizeofCoservice then false
  else l.inTable serviceHandle

/-- `discover_coservice2`. -/
def discoverCoservice2 (l : Layout) (s : Daemon) (service : ServiceCap) :
    Option (Daemon × Reply) := do
  let (s, scb) ← s.discover l service
  some (s, .ok service (some scb))

/-! ### `coprovide` and `coprovide2` -/

/-- `valid_scb`. -/
def validScb (_ : ServiceCap) : Bool := true

/-- The loop of `validate_coprovide_args`, from entry `i` on. It reads the array of the client. -/
def scbLoop (scbs : ScbArray) (i : Nat) : Nat → Option Bool
  | 0     => some true
  | n + 1 =>
    if LoadsCap scbs.cap (i * chericapSize) then
      if validScb (loaded scbs.cap (scbs.scb i)) = false then some false
      else scbLoop scbs (i + 1) n
    else none

/-- `memcpy` of the array, which has no alignment to keep. -/
def copyScbs (scbs : ScbArray) (n : Nat) : Option (List ServiceCap) :=
  if scbs.cap.Loads 0 (n * chericapSize) then
    some ((List.range n).map fun i => loaded scbs.cap (scbs.scb i))
  else none

/-- `validate_coprovide_args`: refused, or accepted with the copy of the array. When there is no
memory for it, `memcpy` faults. -/
def validateCoprovideArgs (nworkers : Int) (scbs : ScbArray) (calloc : Bool) :
    Option (Option (List ServiceCap)) :=
  if nworkers ≤ 0 then some none
  else if (coserviceMaxWorkers : Int) < nworkers then some none
  else if (scbs.cap.length : Int) < chericapSize * nworkers then some none
  else if calloc = false then none
  else do
    -- The length was tested and not the tag, and the copy begins at the address of the capability.
    let copy ← copyScbs scbs nworkers.toNat
    if (← scbLoop scbs 0 nworkers.toNat) = false then some none
    else some (some copy)

/-- `provide_coservice`. The stores through what the allocations return fault for `NULL`. -/
def provideCoservice (l : Layout) (s : Daemon) (nworkers : Int) (scbs : List ServiceCap)
    (flags op : Int) : Option (Daemon × Reply) := do
  let (s, service) := s.allocate .coservice
  let (s, endpoint) := s.allocate .endpoint
  -- `coservice_ptr->impl = allocate_endpoint()` calls the second allocator in any case.
  let i ← service
  let j ← endpoint
  let (handle, entry) := createCoserviceHandle (l.servicePtr i) ⟨l.endpointPtr j, op, flags⟩
  some ((s.setEndpoint j ⟨scbs, nworkers, 0⟩).setService i entry, .ok handle none)

/-- `provide_coservice2`. -/
def provideCoservice2 (l : Layout) (s : Daemon) (endpoint : ServiceCap) (flags op : Int) :
    Option (Daemon × Reply) := do
  let (s, service) := s.allocate .coservice
  let i ← service
  let (handle, entry) := createCoserviceHandle (l.servicePtr i) ⟨endpoint, op, flags⟩
  some (s.setService i entry, .ok handle none)

/-- `coaccept_handler`. -/
def handle (l : Layout) (s : Daemon) : Request → Option (Daemon × Reply)
  | .codiscover nsobj => do
    if (← validateCodiscoverArgs l nsobj) = false then some (s, .err .einval)
    else s.discoverCoservice l nsobj
  | .codiscover2 coservice =>
    if validateCodiscover2Args l coservice = false then some (s, .err .einval)
    else s.discoverCoservice2 l coservice
  | .coprovide nworkers workerScbs flags op calloc => do
    match ← validateCoprovideArgs nworkers workerScbs calloc with
    | none      => some (s, .err .einval)
    | some scbs => s.provideCoservice l nworkers scbs flags op
  | .coprovide2 endpoint flags op =>
    if isValidEndpoint endpoint = false then some (s, .err .einval)
    else s.provideCoservice2 l endpoint flags op

/-- One request. -/
def step (l : Layout) (s : Daemon) (r : Request) : Option Daemon :=
  (s.handle l r).map Prod.fst

/-! ### Startup -/

/-- The tables after `setup_table`. -/
def setupTable : Daemon := ⟨initCounters, fun _ => emptyService, fun _ => emptyEndpoint⟩

/-- `init_service`. `fast` is `fast_endpoint`, and `scbs` are the workers of coserviced. -/
def initService (l : Layout) (scbs : List ServiceCap) (op : CocallNum)
    (p : Daemon × Option ServiceCap) : Option (Daemon × Option ServiceCap) := do
  let (s, fast) := p
  let (s, service) := s.allocate .coservice
  let i ← service
  let (s, impl) ← match fast with
    | some impl => some (s, impl)
    | none => do
      let (s, endpoint) := s.allocate .endpoint
      let j ← endpoint
      let (_, entry) := createCoserviceHandle (l.servicePtr i) ⟨l.endpointPtr j, op.value, 0⟩
      -- The first service seals the endpoint that all of them share.
      some (s.setEndpoint j ⟨scbs, scbs.length, 1⟩, entry.impl)
  let (s, _) ← s.getCoserviceScb l (unsealEndpoint impl)
  let (_, entry) := createCoserviceHandle (l.servicePtr i) ⟨impl, op.value, 0⟩
  some (s.setService i entry, some impl)

/-- `coserviced_startup`, with the services of `coaccept_endpoints.inc`. -/
def coservicedStartup (l : Layout) (scbs : List ServiceCap) : Option Daemon := do
  let p ← initService l scbs .codiscover (setupTable, none)
  let p ← initService l scbs .codiscover2 p
  let p ← initService l scbs .coprovide2 p
  let (s, fast) ← initService l scbs .coprovide p
  let (s, _) ← s.getCoserviceScb l (unsealEndpoint (← fast))
  some s

end Daemon

end Comsg.Coserviced
