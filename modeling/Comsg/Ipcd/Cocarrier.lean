import Comsg.Ipcd.Coport
import Comsg.Lib.Transition

/-!
# `Comsg.Ipcd.Cocarrier`: whole calls on one cocarrier

`cocarrier_send`, `cocarrier_recv`, `coport_close` and `free_comsg` as functions of the port,
for a port on which one call runs at a time. The acquisition loop of a handler then sees one
value of `status` until it leaves the loop. A call returns `none` when it would spin for
ever: the status is one the loop waits out, and no other party changes it.

`copollNotify` is `copoll_notify`. A send or receive whose event some listener waits for
hands the port to a notifier (`queued`), and otherwise turns `COPORT_DONE` back into
`COPORT_OPEN` itself.

The part of `cocarrier_send` before the loop copies the caller's message and attachments
into buffers of its own and does not look at the port. A send starts here with the message
already copied, and with the length it will report.
-/

set_option autoImplicit false

namespace Comsg.Ipcd

open Comsg.Lib

/-- The reply of a handler: `COCALL_RETURN` with its value, or `COCALL_ERR`. A receive
returns what it read from the slot. -/
inductive Reply
  | sent (len : Nat)
  | received (msg : Message)
  | closed
  | freed
  | err (error : Errno)
  deriving DecidableEq, Repr

/-- The result of one call. `queued` says that the port was handed to a notifier. -/
structure Outcome where
  port : Coport
  reply : Reply
  queued : Bool

/-- `copoll_notify`. The second component says that `put_coport_event` was called. -/
def copollNotify (port : Coport) (event : CoportEventmask) : Coport × Bool :=
  if port.announces event then (port, true)
  else if port.status = .coportDone then (port.setStatus .coportOpen, false)
  else (port, false)

/-- `cocarrier_send` of a prepared message. -/
def cocarrierSend (port : Coport) (msg : Message) (msgLen : Nat) : Option Outcome :=
  match port.status with
  | .coportOpen =>
    let port := port.setStatus .coportBusy
    if port.sendRefused then
      some ⟨port.refuseSend.setStatus .coportOpen, .err .eagain, false⟩
    else
      -- `COPORT_DONE` is for `copoll_notify` to turn into `COPORT_OPEN`.
      let (port, queued) := copollNotify ((port.enqueue msg).setStatus .coportDone) copollIn
      some ⟨port, .sent msgLen, queued⟩
  | .coportClosed | .coportClosing => some ⟨port, .err .epipe, false⟩
  | _ => none

/-- What the acquisition loop of `cocarrier_recv` ends with: the status found and the flag
`closing`. -/
def recvAcquire : CoportStatus → Option (CoportStatus × Bool)
  | .coportOpen    => some (.coportOpen, false)
  | .coportClosing => some (.coportClosing, true)
  | _              => none

/-- `cocarrier_recv`. A refused receive stores `COPORT_OPEN`, a successful one the status it
found. -/
def cocarrierRecv (port : Coport) : Option Outcome :=
  if port.status = .coportClosed then some ⟨port, .err .epipe, false⟩
  else
    (recvAcquire port.status).map fun (status, closing) =>
      let port := port.setStatus .coportBusy
      if port.recvRefused then
        ⟨port.refuseRecv.setStatus .coportOpen, .err .eagain, false⟩
      else
        let index := port.start
        let port := (port.dequeue closing).setStatus status
        -- The slot is read after the store that releases the port.
        let msg := (port.buf index).msg
        let (port, queued) := copollNotify (port.markRecvd index) copollOut
        ⟨port, .received msg, queued⟩

/-- `coport_close`. -/
def coportClose (port : Coport) : Option Outcome :=
  match port.status with
  | .coportOpen =>
    some ⟨((port.setStatus .coportBusy).markClosed).setStatus .coportClosing, .closed, false⟩
  | .coportClosed | .coportClosing => some ⟨port, .err .epipe, false⟩
  | _ => none

/-- The slot `free_comsg` stops at: received, not freed, and holding a buffer with the
address and the length of `buf`. -/
def freeable (port : Coport) (buf : MsgBuf) (i : Nat) : Bool :=
  (port.buf i).recvd && !(port.buf i).freed &&
    match (port.buf i).msg.buf with
    | some b => b.base == buf.base && b.len == buf.len
    | none   => false

/-- `free_comsg` on the message buffer `buf`. The scan runs over the slots in order and ends
at the first one that matches. -/
def freeComsg (port : Coport) (buf : MsgBuf) : Outcome :=
  match (List.range cocarrierSize).find? (freeable port buf) with
  | some i =>
    let slot := port.buf i
    let slot := { slot with freed := true, msg := { slot.msg with buf := none } }
    ⟨{ port with buf := Function.update port.buf i slot }, .freed, false⟩
  | none => ⟨port, .err .einval, false⟩

/-- A request to ipcd about one cocarrier. -/
inductive Call
  | cosend (msg : Message) (msgLen : Nat)
  | corecv
  | coclose
  | comsgFree (buf : MsgBuf)
  deriving DecidableEq, Repr

/-- One request, run to its reply. -/
def callOutcome (port : Coport) : Call → Option Outcome
  | .cosend msg msgLen => cocarrierSend port msg msgLen
  | .corecv            => cocarrierRecv port
  | .coclose           => coportClose port
  | .comsgFree buf     => some (freeComsg port buf)

/-- One request, as a step of the answering machine. -/
def callStep (port : Coport) (c : Call) : Option (Coport × Reply) :=
  (callOutcome port c).map fun o => (o.port, o.reply)

/-- The message of a send that was accepted. -/
def acceptedOf : Call × Reply → Option Message
  | (.cosend msg _, .sent _) => some msg
  | _                        => none

/-- The message a receive returned. -/
def receivedOf : Call × Reply → Option Message
  | (.corecv, .received msg) => some msg
  | _                        => none

/-- The messages the sends of a log had accepted, in order. -/
def accepted (log : List (Call × Reply)) : List Message := log.filterMap acceptedOf

/-- The messages the receives of a log returned, in order. -/
def received (log : List (Call × Reply)) : List Message := log.filterMap receivedOf

/-- A close in the log has returned 0. -/
def everClosed (log : List (Call × Reply)) : Bool := log.any fun e => e == (.coclose, .closed)

/-- The accepted messages that no receive has returned yet, in sending order. -/
def outstanding (log : List (Call × Reply)) : List Message :=
  (accepted log).drop (received log).length

end Comsg.Ipcd
