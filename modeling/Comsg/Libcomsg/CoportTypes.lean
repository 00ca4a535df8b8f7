import Comsg.Libcomsg.ObjectTypes
import Comsg.Lib.Transition

/-!
# `Comsg.Libcomsg.CoportTypes`: how a client tells the types of coports apart

A client makes the object types of copipes and cochannels itself. It does not know the one of
cocarriers, and takes it from a capability that it is given.

* `coportGettype`, `processCoportHandle`: `coport_ipc_utils.c:77-139`. `cocarrier_preload` is left
  out, and so is the text of the warning.
* `cosend`, `corecv`, `cosendOob`, `corecvOob`: `coport_ipc.c:94-225`, up to the call that a coport
  of the type is for. `open_coport`, `open_named_coport` and `set_coport_handle_type` come to a call
  of `processCoportHandle`.

`ClientOtypes` changes only where the object type of cocarriers is learned.
-/

set_option autoImplicit false

namespace Comsg.Libcomsg

open Comsg.Lib
open Comsg.Lib.Cheri

def ipcdOtypeRangeStart : Int := 32
def ipcdOtypeRangeEnd : Int := 63

namespace ClientOtypes

/-- The object type of cocarriers is learned. -/
def learn (t : ClientOtypes) (otype : Int) : ClientOtypes := { t with cocarrierOtype := otype }

/-- `coport_gettype`. `none` is `INVALID_COPORT`. -/
def coportGettype (t : ClientOtypes) (port : Word) : Option CoportType × ClientOtypes :=
  if port.otype = none then (none, t)
  else
    let portOtype := gettype port
    if portOtype = t.cocarrierOtype then (some .cocarrier, t)
    else if portOtype = t.cochannel.otype then (some .cochannel, t)
    else if portOtype = t.copipe.otype then (some .copipe, t)
    else if t.cocarrierOtype = 0 then
      if ipcdOtypeRangeStart ≤ portOtype ∧ portOtype ≤ ipcdOtypeRangeEnd then
        (some .cocarrier, t.learn portOtype)
      else (none, t)
    else (none, t)

/-- The seal of `process_coport_handle` with `sc`. -/
def sealHandle (port sc : Word) : Option Word :=
  if port.otype.isSome = true then some port else cheriSeal (clearperm port permGlobal) sc

/-- `process_coport_handle`, which exits for other types. -/
def processCoportHandle (t : ClientOtypes) (port : Word) (type : Int) :
    Option (Word × ClientOtypes) :=
  if type = CoportType.copipe.toInt then do some (← sealHandle port t.copipe.sc, t)
  else if type = CoportType.cochannel.toInt then do some (← sealHandle port t.cochannel.sc, t)
  else if type = CoportType.cocarrier.toInt then
    if t.cocarrierOtype = 0 then some (port, t.learn (gettype port))
    -- A different object type is only warned about.
    else some (port, t)
  else none

end ClientOtypes

/-! ### Sends and receives -/

/-- Where a call for a coport goes: to the code that the coport is invoked with, or to ipcd. -/
inductive Transport
  | cinvokeCochannel
  | cinvokeCopipe
  | cocarrier
  deriving DecidableEq, Repr

inductive CallError
  | einval
  | eopnotsupp
  deriving DecidableEq, Repr

/-- The call for a coport of the type, without attachments. -/
def transport (type : Option CoportType) (len : Nat) : Except CallError Transport :=
  match type with
  | some .cochannel => if len = 0 then .error .einval else .ok .cinvokeCochannel
  | some .copipe    => if len = 0 then .error .einval else .ok .cinvokeCopipe
  | some .cocarrier => .ok .cocarrier
  | none            => .error .einval

/-- The call for a coport of the type, with attachments. -/
def transportOob (type : Option CoportType) : Except CallError Transport :=
  match type with
  | some .cochannel | some .copipe => .error .eopnotsupp
  | some .cocarrier                => .ok .cocarrier
  | none                           => .error .einval

namespace ClientOtypes

def cosend (t : ClientOtypes) (port : Word) (len : Nat) :
    Except CallError Transport × ClientOtypes :=
  let r := t.coportGettype port
  (transport r.1 len, r.2)

def corecv (t : ClientOtypes) (port : Word) (len : Nat) :
    Except CallError Transport × ClientOtypes :=
  let r := t.coportGettype port
  (transport r.1 len, r.2)

def cosendOob (t : ClientOtypes) (port : Word) : Except CallError Transport × ClientOtypes :=
  let r := t.coportGettype port
  (transportOob r.1, r.2)

def corecvOob (t : ClientOtypes) (port : Word) : Except CallError Transport × ClientOtypes :=
  let r := t.coportGettype port
  (transportOob r.1, r.2)

end ClientOtypes

/-- What a client does with a coport. `process` is a call of `set_coport_handle_type`, or what opening
a coport comes to. -/
inductive CoportAct
  | cosend (port : Word) (len : Nat)
  | corecv (port : Word) (len : Nat)
  | cosendOob (port : Word)
  | corecvOob (port : Word)
  | process (port : Word) (type : Int)

/-- One call of the client. `none` stands for the end of the client. -/
def ClientOtypes.step (t : ClientOtypes) : CoportAct → Option ClientOtypes
  | .cosend port len   => some (t.cosend port len).2
  | .corecv port len   => some (t.corecv port len).2
  | .cosendOob port    => some (t.cosendOob port).2
  | .corecvOob port    => some (t.corecvOob port).2
  | .process port type => (t.processCoportHandle port type).map fun r => r.2

end Comsg.Libcomsg
