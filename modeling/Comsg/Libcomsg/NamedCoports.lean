import Comsg.Ipcd.Coopen
import Comsg.Ipcd.Endpoints
import Comsg.Lib.Transition
import Comsg.Nsd.Authority
import Comsg.Nsd.Clients

/-!
# `Comsg.Libcomsg.NamedCoports`: coports that are opened under a name

`open_named_coport` (`coport_ipc.c:56-80`) calls three functions of two daemons: ipcd opens a
coport, nsd puts it under a name, and if nsd does not, ipcd closes the coport again. Any number of
threads do this at once, and others use nsd and the coports meanwhile.

* `PortLayout`: where ipcd's tables of coports are, and the handles that `coport_open` returns.
* `Opener`: a thread in `open_named_coport`. The stubs `coopen`, `coinsert` and `coclose` are those of
  `ukern_calls.c`.
* `openerStep`: one cocall of such a thread. `namedStep`: a step of anyone.

A cocall is one step, and the daemons handle requests one at a time. `ret` is what the cocall
returns, with `none` for -1, when it has not got to the daemon. A process that ends with `err` is
`exited`.
-/

set_option autoImplicit false

namespace Comsg.Libcomsg

open Comsg.Lib
open Comsg.Ipcd (AnyPort maxCoports sizeofCoportTblEntry)
open Comsg.Nsd (NsCap ObjectArgs)

/-- Where the three tables of coports are. Entries do not overlap. -/
structure PortLayout where
  base : CoportType → Nat
  apart : ∀ type type' i i', i < maxCoports → i' < maxCoports →
    base type + i * sizeofCoportTblEntry = base type' + i' * sizeofCoportTblEntry →
      type = type' ∧ i = i'

namespace PortLayout

/-- The address of a coport. -/
def entry (l : PortLayout) (type : CoportType) (i : Nat) : Nat :=
  l.base type + i * sizeofCoportTblEntry

/-- The handle of a coport, as nsd sees it. -/
def handle (l : PortLayout) (type : CoportType) (i : Nat) : NsCap :=
  Nsd.present {
    tag := true
    otype := some (.coport type)
    base := l.entry type i
    length := Ipcd.sizeofCoport
    addr := l.entry type i
    perms := (dataPerms &&& Ipcd.coportPerms) &&& ~~~permGlobal }

end PortLayout

/-- Where a thread in `open_named_coport` is. `i` is the entry of its coport. -/
inductive OpenerPc
  | coopen
  | coinsert (i : Nat)
  | coclose (i : Nat)
  | returned (i : Nat) (obj : NsCap)
  | failed (i : Option Nat)
  | exited
  deriving DecidableEq

/-- A thread in `open_named_coport`, with its arguments. -/
structure Opener where
  name : List UInt8
  type : CoportType
  ns : NsCap
  pc : OpenerPc

/-- The coport of the thread. -/
def Opener.port (o : Opener) : Option Nat :=
  match o.pc with
  | .coinsert i | .coclose i | .returned i _ | .failed (some i) => some i
  | _ => none

/-- The coport that nobody but the thread has a handle of. -/
def Opener.ownPort (o : Opener) : Option Nat :=
  match o.pc with
  | .coinsert i | .coclose i | .failed (some i) => some i
  | _ => none

/-- nsd, the coports of ipcd, and the threads. -/
structure NamedPorts where
  nsd : Nsd.Tables
  ports : CoportType → List AnyPort
  openers : List Opener

/-- What `coinsert` fills in for a coport. -/
def Opener.insertArgs (o : Opener) (l : PortLayout) (i : Nat) : ObjectArgs where
  nsCap := o.ns
  nsobjName := strncpy nsNameLen o.name
  nsobj := .null
  nsobjType := .coport
  obj := l.handle o.type i

namespace NamedPorts

/-- `coport_open`. `none` is `ENOMEM`. -/
def openPort (s : NamedPorts) (type : CoportType) : Option (NamedPorts × Nat) :=
  if (s.ports type).length = maxCoports then none
  else
    some ({ s with
      ports := Function.update s.ports type (s.ports type ++ [AnyPort.init type]) },
      (s.ports type).length)

def setPort (s : NamedPorts) (type : CoportType) (i : Nat) (port : AnyPort) : NamedPorts :=
  { s with ports := Function.update s.ports type ((s.ports type).set i port) }

/-- The next cocall of a thread, and where the thread is then. -/
def openerStep (l : PortLayout) (s : NamedPorts) (o : Opener) (ret : Option Nat) :
    Option (NamedPorts × OpenerPc) :=
  match o.pc, ret with
  | .coopen, none   => some (s, .exited)
  | .coopen, some _ =>
    match s.openPort o.type with
    | none         => some (s, .failed none)
    | some (s', i) => some (s', .coinsert i)
  | .coinsert i, ret =>
    if (cstr nsNameLen o.name).length = nsNameLen then some (s, .exited)
    else
      match ret with
      -- The status and the object are those of the arguments, which are zero.
      | none => some (s, .coclose i)
      | some value => do
        let (tables, reply) ← s.nsd.handle (.coinsert (o.insertArgs l i))
        let s := { s with nsd := tables }
        -- The stub takes the return value 0 for a failure.
        if value = 0 then some (s, .exited)
        else
          match reply with
          | .ok obj => if obj.target = none then some (s, .coclose i) else some (s, .returned i obj)
          | .err _  => some (s, .coclose i)
  | .coclose _, none   => some (s, .exited)
  | .coclose i, some _ => do
    let port ← (s.ports o.type)[i]?
    let (port, reply) ← Ipcd.closePort port
    match reply with
    | .call .closed => some (s.setPort o.type i port, .failed (some i))
    | _             => some (s.setPort o.type i port, .exited)
  | _, _ => none

end NamedPorts

/-- A call of `open_named_coport`, a cocall of a thread in it, the end of a process, or what others
do: a request to nsd, a coport of their own, or an operation on a coport. -/
inductive NamedAct
  | begin (name : List UInt8) (type : CoportType) (ns : NsCap)
  | advance (k : Nat) (ret : Option Nat)
  | exit (k : Nat)
  | request (r : Nsd.Request)
  | coopen (type : CoportType)
  | portOp (type : CoportType) (i : Nat) (op : Ipcd.PortOp)

open NamedPorts

/-- One step. -/
def namedStep (l : PortLayout) (s : NamedPorts) : NamedAct → Option NamedPorts
  | .begin name type ns => some { s with openers := s.openers ++ [⟨name, type, ns, .coopen⟩] }
  | .advance k ret => do
    let o ← s.openers[k]?
    let (s', pc) ← s.openerStep l o ret
    some { s' with openers := s'.openers.set k { o with pc := pc } }
  | .exit k => do
    let o ← s.openers[k]?
    some { s with openers := s.openers.set k { o with pc := .exited } }
  | .request r   => (s.nsd.step r).map fun tables => { s with nsd := tables }
  | .coopen type => (s.openPort type).map fun p => p.1
  | .portOp type i op => do
    let port ← (s.ports type)[i]?
    let port ← Ipcd.portStep port op
    some (s.setPort type i port)

/-- Others use the handles that they have: none of a coport that ipcd has not opened, and none that
only a thread in `open_named_coport` has got. -/
def NamedOk (l : PortLayout) (s : NamedPorts) : NamedAct → Prop
  | .request r =>
    ∀ c ∈ Nsd.Request.stored r, ∀ type i, i < maxCoports →
      c.target = some (.client (l.entry type i)) →
        i < (s.ports type).length ∧ ∀ o ∈ s.openers, o.type = type → o.ownPort ≠ some i
  | .portOp type i _ => ∀ o ∈ s.openers, o.type = type → o.ownPort ≠ some i
  | _ => True

/-- nsd begins to serve, and ipcd has not opened a coport. -/
def initNamedPorts (nsd : Nsd.Tables) : NamedPorts where
  nsd := nsd
  ports _ := []
  openers := []

end Comsg.Libcomsg
