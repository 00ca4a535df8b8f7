import Comsg.Include.Coport
import Comsg.Lib.Ring

/-!
# `Comsg.Ipcd.Coport`: the coport structure and its locked sections

A cocarrier as ipcd keeps it, and the straight line pieces of ipcd's handlers. A handler
takes the port by a compare-exchange on `status`, works on the other fields, and releases the
port by a store to `status`. The functions of this module are the work in between.
`Comsg.Ipcd.Cocarrier` puts whole calls together from them, and `Comsg.Ipcd.System`
interleaves them.

* `sendRefused`, `refuseSend`, `enqueue`: `cocarrier_send`, `cosend.c:182-224`.
* `recvRefused`, `refuseRecv`, `dequeue`, `markRecvd`: `cocarrier_recv`, `corecv.c:83-116`.
* `markClosed`: `coport_close`, `coclose.c:78-81`.
* `addListener`, `removeListener`: `wait_for_events`, `copoll.c:135-136, 153`.
* `deliver`, `deliverStatus`: `process_coport_event`, `copoll_deliver.c:73-94`.
* `announces`: the test of `copoll_notify`, `copoll_utils.c:119`.

A `size_t` field of a cocarrier never exceeds `COCARRIER_SIZE`, so `length`, `start` and
`end` are natural numbers here. The message array `buffer->buf` holds `COCARRIER_SIZE`
pointers, and every index into it is reduced modulo that size. It is a function of the
index. The field `sent` of a message is never read or written and is left out.
-/

set_option autoImplicit false

namespace Comsg.Ipcd

open Comsg.Lib

/-- A message buffer: where `malloc` put it, and the bytes under its capability. The length
of the capability is the number of bytes. -/
structure MsgBuf where
  base : Nat
  data : List UInt8
  deriving DecidableEq, Repr

/-- `__builtin_cheri_length_get` of a message buffer. -/
def MsgBuf.len (b : MsgBuf) : Nat := b.data.length

/-- `coport_attachment_type_t`. -/
inductive CoportAttachmentType
  | attachmentInvalid
  | attachmentReservation
  | attachmentCoport
  | attachmentCoevent
  deriving DecidableEq, Repr

/-- `comsg_attachment_t`. The item is the address of the attached capability. -/
structure ComsgAttachment where
  item : Nat
  type : CoportAttachmentType
  deriving DecidableEq, Repr

/-- The fields of `struct cocarrier_message` that a sender fills in and a receiver reads. A
`none` is a NULL capability. -/
structure Message where
  buf : Option MsgBuf
  attachments : Option (List ComsgAttachment)
  nattachments : Nat
  deriving DecidableEq, Repr

/-- `struct cocarrier_message`. -/
structure CocarrierMessage where
  msg : Message
  freed : Bool
  recvd : Bool
  deriving DecidableEq, Repr

/-- A message structure fresh from `calloc`. -/
def CocarrierMessage.zeroed : CocarrierMessage :=
  { msg := { buf := none, attachments := none, nattachments := 0 }, freed := false, recvd := false }

/-- An entry of a port's listener list: the `index`-th listener of the poller `poller`, and
the events it waits for. The remaining fields of `coport_listener_t` belong to the poller
and are in `Comsg.Ipcd.System`. -/
structure ListenEntry where
  poller : Nat
  index : Nat
  events : CoportEventmask
  deriving DecidableEq, Repr

/-- A cocarrier: `coport_info_t`, the listener list and `levent` of `coport_typedep_t`, and
the message array. -/
structure Coport where
  length : Nat
  start : Nat
  end_ : Nat
  status : CoportStatus
  event : CoportEventmask
  listeners : List ListenEntry
  levent : CoportEventmask
  buf : Nat → CocarrierMessage

/-- The state `init_coport` leaves for a `COCARRIER`. -/
def initCoport : Coport where
  length := 0
  start := 0
  end_ := 0
  status := .coportOpen
  event := copollInitEvents
  listeners := []
  levent := noevent
  buf := fun _ => .zeroed

namespace Coport

/-- A store to `info->status`. -/
def setStatus (port : Coport) (status : CoportStatus) : Coport := { port with status }

/-! ### The locked section of `cocarrier_send` -/

/-- The test that refuses a send: the array is full, or `COPOLL_OUT` is not set. -/
def sendRefused (port : Coport) : Prop :=
  cocarrierSize ≤ port.length ∨ ¬Meets port.event copollOut

instance (port : Coport) : Decidable port.sendRefused := inferInstanceAs (Decidable (_ ∨ _))

/-- What a refused send writes. -/
def refuseSend (port : Coport) : Coport := { port with event := port.event ||| copollWerr }

/-- The event mask an accepted send stores, for the new length. -/
def sentEvent (event : CoportEventmask) (newLen : Nat) : CoportEventmask :=
  if newLen = cocarrierSize then (copollIn ||| event) &&& ~~~(copollWerr ||| copollOut)
  else (copollIn ||| event) &&& ~~~copollWerr

/-- What an accepted send writes: the slot at `end`, the advanced index and length, and the
event mask. -/
def enqueue (port : Coport) (msg : Message) : Coport :=
  { port with
    end_ := (port.end_ + 1) % cocarrierSize
    length := port.length + 1
    buf := Function.update port.buf port.end_ { msg, freed := false, recvd := false }
    event := sentEvent port.event (port.length + 1) }

/-! ### The locked section of `cocarrier_recv`, and its reads after the release -/

/-- The test that refuses a receive: nothing is queued, or `COPOLL_IN` is not set. -/
def recvRefused (port : Coport) : Prop :=
  port.length = 0 ∨ ¬Meets port.event copollIn

instance (port : Coport) : Decidable port.recvRefused := inferInstanceAs (Decidable (_ ∨ _))

/-- What a refused receive writes. -/
def refuseRecv (port : Coport) : Coport := { port with event := port.event ||| copollRerr }

/-- The event mask a successful receive stores. `closing` is the local flag of the handler:
it has seen `COPORT_CLOSING`. -/
def takenEvent (event : CoportEventmask) (newLen : Nat) (closing : Bool) : CoportEventmask :=
  -- A closing port must not invite another send.
  let event := if closing then event else event ||| copollOut
  if newLen = 0 then event &&& ~~~(copollRerr ||| copollIn) else event &&& ~~~copollRerr

/-- What a successful receive writes under the lock. -/
def dequeue (port : Coport) (closing : Bool) : Coport :=
  { port with
    start := (port.start + 1) % cocarrierSize
    length := port.length - 1
    event := takenEvent port.event (port.length - 1) closing }

/-- The store `msg->recvd = true`, made after the release. -/
def markRecvd (port : Coport) (index : Nat) : Coport :=
  { port with buf := Function.update port.buf index { port.buf index with recvd := true } }

/-! ### The locked section of `coport_close` -/

/-- What `coport_close` writes: `COPOLL_OUT` cleared, `COPOLL_CLOSED` set. -/
def markClosed (port : Coport) : Coport :=
  { port with event := (port.event &&& ~~~copollOut) ||| copollClosed }

/-! ### Listeners and their delivery -/

/-- `LIST_INSERT_HEAD` and the update of `levent`. -/
def addListener (port : Coport) (l : ListenEntry) : Coport :=
  { port with listeners := l :: port.listeners, levent := port.levent ||| l.events }

/-- `LIST_REMOVE`. `levent` stays as it is. -/
def removeListener (port : Coport) (l : ListenEntry) : Coport :=
  { port with listeners := port.listeners.erase l }

/-- The test of `copoll_notify`: some listener is registered, and `levent` has the event. -/
def announces (port : Coport) (event : CoportEventmask) : Prop :=
  port.listeners ≠ [] ∧ Meets port.levent event

instance (port : Coport) (event : CoportEventmask) : Decidable (port.announces event) :=
  inferInstanceAs (Decidable (_ ∧ _))

/-- The listener has an event to report: `revents` is not `NOEVENT`. -/
def matched (port : Coport) (l : ListenEntry) : Bool := decide (Meets port.event l.events)

/-- The status a delivery stores, from the status it found. -/
def deliverStatus (port : Coport) (found : CoportStatus) : CoportStatus :=
  if port.length = 0 ∧ found = .coportClosing then .coportClosed else .coportOpen

/-- What a delivery writes to the port: the matched listeners leave the list, and their
events leave `levent`. -/
def deliver (port : Coport) : Coport :=
  { port with
    listeners := port.listeners.filter fun l => !port.matched l
    levent := port.levent &&& ~~~port.event }

end Coport

end Comsg.Ipcd
