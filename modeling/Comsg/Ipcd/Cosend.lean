import Comsg.Ipcd.Cocarrier
import Comsg.Lib.Memcpy

/-!
# `Comsg.Ipcd.Cosend`: how a message gets into its buffer

The part of `cocarrier_send` before its loop (`cosend.c:145-152`): the message is copied into a
buffer from `malloc`. The length of the message is not stored. `cocarrier_recv` reads it off the
capability of the buffer (`corecv.c:108-119`).

`malloc` is not part of the repository. An `Allocator` is what is known of it: the capability that
it returns has a length that capabilities can have, and the length that was asked for when they
can have that.
-/

set_option autoImplicit false

namespace Comsg.Ipcd

open Comsg.Lib

/-- `malloc`. Its result may depend on what happened before, so the calls are numbered. The data of
the buffer is what the heap holds there. -/
structure Allocator where
  representable : Nat → Prop
  malloc : Nat → Nat → MsgBuf
  le_len : ∀ call n, n ≤ (malloc call n).len
  representable_len : ∀ call n, representable (malloc call n).len
  len_eq : ∀ call n, representable n → (malloc call n).len = n

/-- The arguments of `COSEND`. The message is the bytes under its capability, or `none` where that
has no tag. The attachments are as `handle_attachments` leaves them. -/
structure SendArgs where
  message : Option (List UInt8)
  length : Nat
  attachments : Option (List ComsgAttachment)
  nattachments : Nat
  deriving DecidableEq

/-- A request of a client about one cocarrier. -/
inductive ClientCall
  | cosend (args : SendArgs)
  | corecv
  | coclose
  | comsgFree (buf : MsgBuf)
  deriving DecidableEq

/-- `validate_cosend_args` on a genuine cocarrier: the message, if the request is valid. -/
def messageToSend (args : SendArgs) : Option (List UInt8) :=
  args.message.filter fun message =>
    args.length ≤ cocarrierMaxMsgLen && message.length ≤ cocarrierMaxMsgLen

/-- The copy of a message of `msgLen` bytes into the buffer `msgAlloc`. -/
def copyMessage (msgAlloc : MsgBuf) (message : List UInt8) (msgLen : Nat) : Option MsgBuf :=
  (memcpy msgAlloc.data 0 message 0 msgLen).map fun data => { msgAlloc with data }

/-- One request. The second component of the state counts the calls of `malloc`. -/
def clientStep (heap : Allocator) (s : Coport × Nat) :
    ClientCall → Option ((Coport × Nat) × Reply)
  | .cosend args =>
    match messageToSend args with
    | none => some (s, .err .einval)
    | some message => do
      let msgLen := min args.length message.length
      let msgOut ← copyMessage (heap.malloc s.2 msgLen) message msgLen
      let (port, reply) ←
        callStep s.1 (.cosend ⟨some msgOut, args.attachments, args.nattachments⟩ msgLen)
      some ((port, s.2 + 1), reply)
  | .corecv => (callStep s.1 .corecv).map fun (port, reply) => ((port, s.2), reply)
  | .coclose => (callStep s.1 .coclose).map fun (port, reply) => ((port, s.2), reply)
  | .comsgFree buf =>
    (callStep s.1 (.comsgFree buf)).map fun (port, reply) => ((port, s.2), reply)

/-- The reply of a send that was accepted, and the bytes under its capability. -/
def sentOf : ClientCall × Reply → Option (Nat × List UInt8)
  | (.cosend args, .sent n) => args.message.map fun message => (n, message)
  | _                       => none

/-- The message that a receive returned. -/
def deliveredOf : ClientCall × Reply → Option Message
  | (.corecv, .received msg) => some msg
  | _                        => none

/-- What was sent, in order. -/
def sent (log : List (ClientCall × Reply)) : List (Nat × List UInt8) := log.filterMap sentOf

/-- What was received, in order. -/
def delivered (log : List (ClientCall × Reply)) : List Message := log.filterMap deliveredOf

end Comsg.Ipcd
