import Comsg.Ipcd.Cocarrier
import Comsg.Ipcd.Validate

/-!
# `Comsg.Ipcd.Endpoints`: the endpoints of ipcd on a coport of any type

`coaccept_endpoints.inc` and `sloaccept_endpoints.inc` pair a validator and a handler for each
request. A handler gets the coport that the validator has accepted, whatever its type is.

`buffer->buf` is an array of message pointers in a cocarrier, a ring of bytes in a cochannel, and
`NULL` or the buffer of a waiting receiver in a copipe. The clients write to the last two, and to
`info` of these coports. `cd` holds a list of listeners in a cocarrier, and nothing in the others.
A handler that takes them for what they are not ends in a `Misuse`. The array has
`COCARRIER_SIZE` slots, and an index behind them is a misuse as well.

The handlers run one at a time. One that waits for a status which nobody changes returns `none`,
as in `Comsg.Ipcd.Cocarrier`. A poll is described for each of its coports.
-/

set_option autoImplicit false

namespace Comsg.Ipcd

open Comsg.Lib

/-- `coport_info_t`. -/
structure CoportInfo where
  length : Nat
  start : Nat
  end_ : Nat
  status : CoportStatus
  event : CoportEventmask
  deriving DecidableEq, Repr

/-- A coport of any type. The buffer of a receiver is named by its address. -/
inductive AnyPort
  | cocarrier (port : Coport)
  | copipe (info : CoportInfo) (receiver : Option Nat)
  | cochannel (info : CoportInfo) (ring : List UInt8)

/-- What a handler does to a coport that its type does not provide for. -/
inductive Misuse
  | bufferAsMessages
  | cdAsListeners
  | slotOutOfRange
  deriving DecidableEq, Repr

/-- The reply of an endpoint. A poll stores `revents`. -/
inductive PortReply
  | call (reply : Reply)
  | polled (revents : CoportEventmask)
  deriving DecidableEq, Repr

/-- A request to an endpoint, as far as the handler uses it. A listener that was not notified
leaves the list when its poll goes on (`slopollWake`). -/
inductive PortCall
  | coclose
  | cosend (msg : Message) (msgLen : Nat)
  | corecv
  | copoll (events : CoportEventmask)
  | slopoll (entry : ListenEntry) (wait : Bool)
  | slopollWake (entry : ListenEntry)
  | comsgFree (buf : MsgBuf)

namespace AnyPort

/-- What `init_coport` makes of a coport. -/
def init : CoportType → AnyPort
  | .cocarrier => .cocarrier initCoport
  | .copipe    => .copipe ⟨chericapSize, 0, 0, .coportOpen, noevent⟩ none
  | .cochannel =>
    .cochannel ⟨0, 0, 0, .coportOpen, copollInitEvents⟩ (List.replicate coportBufLen 0)

def type : AnyPort → CoportType
  | .cocarrier _   => .cocarrier
  | .copipe _ _    => .copipe
  | .cochannel _ _ => .cochannel

/-- `info->event`. -/
def event : AnyPort → CoportEventmask
  | .cocarrier port   => port.event
  | .copipe info _    => info.event
  | .cochannel info _ => info.event

end AnyPort

/-- `coport_close` on `info` of a coport. -/
def closeInfo (info : CoportInfo) : Option (CoportInfo × Reply) :=
  match info.status with
  | .coportOpen =>
    some ({ info with
      event := (info.event &&& ~~~copollOut) ||| copollClosed
      status := .coportClosing }, .closed)
  | .coportClosed | .coportClosing => some (info, .err .epipe)
  | _ => none

/-- The access to slot `index` of the message array. -/
def checkSlot (index : Nat) : Except Misuse Unit :=
  if index < cocarrierSize then .ok () else .error .slotOutOfRange

/-- The result of a call on a cocarrier. -/
def ofOutcome (o : Outcome) : AnyPort × PortReply := (.cocarrier o.port, .call o.reply)

/-- `coport_close`. -/
def closePort : AnyPort → Option (AnyPort × PortReply)
  | .cocarrier port         => (coportClose port).map ofOutcome
  | .copipe info receiver   =>
    (closeInfo info).map fun (info, reply) => (.copipe info receiver, .call reply)
  | .cochannel info ring    =>
    (closeInfo info).map fun (info, reply) => (.cochannel info ring, .call reply)

/-- `coport_send`. -/
def sendPort (port : AnyPort) (msg : Message) (msgLen : Nat) :
    Except Misuse (Option (AnyPort × PortReply)) :=
  match port with
  | .cocarrier p => do
    if p.status = .coportOpen ∧ ¬p.sendRefused then checkSlot p.end_
    return (cocarrierSend p msg msgLen).map ofOutcome
  | _ => .ok (some (port, .call (.err .enosys)))

/-- `coport_recv`. -/
def recvPort (port : AnyPort) : Except Misuse (Option (AnyPort × PortReply)) :=
  match port with
  | .cocarrier p => do
    if (recvAcquire p.status).isSome ∧ ¬p.recvRefused then checkSlot p.start
    return (cocarrierRecv p).map ofOutcome
  | _ => .ok (some (port, .call (.err .enosys)))

/-- `wait_for_events` on one coport, with the work that is done once the port is taken. -/
def withListeners (port : AnyPort) (work : Coport → Coport) (revents : CoportEventmask) :
    Except Misuse (Option (AnyPort × PortReply)) :=
  match port with
  | .cocarrier p =>
    .ok (if p.status = .coportOpen then some (.cocarrier (work p), .polled revents) else none)
  | _ => .error .cdAsListeners

/-- `cocarrier_poll_slow` on one coport, until it waits. -/
def slopollPort (port : AnyPort) (entry : ListenEntry) (wait : Bool) :
    Except Misuse (Option (AnyPort × PortReply)) :=
  let revents := entry.events &&& port.event
  if wait = true ∧ revents = noevent then withListeners port (·.addListener entry) noevent
  else .ok (some (port, .polled revents))

/-- `free_comsg`. -/
def freePort (port : AnyPort) (buf : MsgBuf) : Except Misuse (Option (AnyPort × PortReply)) :=
  match port with
  | .cocarrier p => .ok (some (ofOutcome (freeComsg p buf)))
  | _            => .error .bufferAsMessages

/-- The handler of each request. -/
def portHandler (port : AnyPort) : PortCall → Except Misuse (Option (AnyPort × PortReply))
  | .coclose            => .ok (closePort port)
  | .cosend msg msgLen  => sendPort port msg msgLen
  | .corecv             => recvPort port
  | .copoll events      => .ok (some (port, .polled (events &&& port.event)))
  | .slopoll entry wait => slopollPort port entry wait
  | .slopollWake entry  => withListeners port (·.removeListener entry) noevent
  | .comsgFree buf      => freePort port buf

/-! ### The life of a coport -/

/-- What happens to a coport: a request, or a store of a client that uses the coport itself. -/
inductive PortOp
  | request (call : PortCall)
  | storeInfo (info : CoportInfo)
  | publish (receiver : Option Nat)
  | writeRing (ring : List UInt8)

/-- The coport after the operation. Clients do not reach into a cocarrier. -/
def portStep (port : AnyPort) : PortOp → Option AnyPort
  | .request call =>
    match portHandler port call with
    | .ok (some (port, _)) => some port
    | _                    => none
  | .storeInfo info =>
    match port with
    | .copipe _ receiver => some (.copipe info receiver)
    | .cochannel _ ring  => some (.cochannel info ring)
    | .cocarrier _       => none
  | .publish receiver =>
    match port with
    | .copipe info _ => some (.copipe info receiver)
    | _              => none
  | .writeRing ring =>
    match port with
    | .cochannel info _ => some (.cochannel info ring)
    | _                 => none

/-! ### Validators and handlers -/

section
variable {s : PortTables}

/-- The handlers behind the validator of a request. `COPOLL` and `SLOPOLL` have the same one. -/
def Serves : PortRequest s → PortCall → Prop
  | .coclose _,     .coclose       => True
  | .cosend _,      .cosend _ _    => True
  | .corecv _,      .corecv        => True
  | .copoll _ _,    .copoll _      => True
  | .copoll _ _,    .slopoll _ _   => True
  | .copoll _ _,    .slopollWake _ => True
  | .comsgFree _ _, .comsgFree _   => True
  | _,              _              => False

/-- The capability is a coport of the request. -/
def Names (c : PortCap) : PortRequest s → Prop
  | .cosend args             => args.cocarrier.cap = c
  | .corecv cocarrier        => cocarrier.cap = c
  | .coclose port            => port.cap = c
  | .copoll ncoports coports =>
    ∃ i, i < ncoports ∧ (PortTables.readCoport coports i).map ClientCap.cap = some c
  | .comsgFree port _        => port.cap = c

end

end Comsg.Ipcd
