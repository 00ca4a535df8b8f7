import Comsg.Ipcd.Coport
import Comsg.Lib.Transition

/-!
# `Comsg.Ipcd.Delivery`: concurrent sends and receives on one cocarrier

The interleavings of `cocarrier_send` and `cocarrier_recv` on an open port without listeners.
Any number of callers take part. The atomic steps are

* `send`: the locked section of a send, from the compare-exchange to the releasing store;
* `take`: the locked section of a receive. It fixes `index` and gives the slot back to the
  ring;
* `read`: the reads of `buf`, `attachments` and `nattachments` from slot `index` and the
  store to `recvd`, which `cocarrier_recv` makes after its releasing store
  (`corecv.c:106-116`);
* `notify`: the compare-exchange of `copoll_notify`, which turns `COPORT_DONE` back into
  `COPORT_OPEN`.

`accepted` and `taken` are the history of the run. `accepted` are the messages of the sends,
in the order of their locked sections. `taken` has one entry for each receive, in the order
of theirs: who received, and what it returned once it has.
-/

set_option autoImplicit false

namespace Comsg.Ipcd

open Comsg.Lib

/-- A port with callers on it. `pending t` is the slot that the receiver `t` has taken and
not read yet, with the position of that receive in `taken`. -/
structure Carrier where
  port : Coport
  pending : Nat → Option (Nat × Nat)
  accepted : List Message
  taken : List (Nat × Option Message)

inductive CarrierAct
  | send (msg : Message)
  | take (t : Nat)
  | read (t : Nat)
  | notify

namespace Carrier

def init : Carrier where
  port := initCoport
  pending := fun _ => none
  accepted := []
  taken := []

/-- The locked section of a send. -/
def send (s : Carrier) (msg : Message) : Carrier :=
  if s.port.sendRefused then
    { s with port := s.port.refuseSend.setStatus .coportOpen }
  else
    { s with
      port := (s.port.enqueue msg).setStatus .coportDone
      accepted := s.accepted ++ [msg] }

/-- The locked section of a receive by `t`. -/
def take (s : Carrier) (t : Nat) : Carrier :=
  if s.port.recvRefused then
    { s with port := s.port.refuseRecv.setStatus .coportOpen }
  else
    { s with
      port := (s.port.dequeue false).setStatus .coportOpen
      pending := Function.update s.pending t (some (s.port.start, s.taken.length))
      taken := s.taken ++ [(t, none)] }

/-- The reads of a receive by `t` that has taken slot `index`. -/
def read (s : Carrier) (t index ticket : Nat) : Carrier :=
  { s with
    port := s.port.markRecvd index
    pending := Function.update s.pending t none
    taken := s.taken.set ticket (t, some (s.port.buf index).msg) }

/-- One atomic step. A locked section starts only on an open port, and a receiver makes one
receive at a time. -/
def step (s : Carrier) : CarrierAct → Option Carrier
  | .send msg => if s.port.status = .coportOpen then some (s.send msg) else none
  | .take t   =>
    if s.port.status = .coportOpen ∧ s.pending t = none then some (s.take t) else none
  | .read t   => (s.pending t).map fun (index, ticket) => s.read t index ticket
  -- Nobody listens, so `copoll_notify` opens a port in `COPORT_DONE` and leaves any other.
  | .notify   =>
    if s.port.status = .coportDone then some { s with port := s.port.setStatus .coportOpen }
    else some s

end Carrier

end Comsg.Ipcd
