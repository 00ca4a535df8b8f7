import Comsg.Libcomsg.Cochannel
import Mathlib.Logic.Function.Basic

/-!
# `Comsg.Libcomsg.CochannelCalls`: concurrent calls on one cochannel

`cochannel_send` and `cochannel_recv` read `info->length` before they take the port. The new
length they store under the lock is computed from that value. This module runs the calls of
any number of threads in two steps each.

* `Call.refused` and the read: the code up to the acquisition of the port,
  `coport_ipc_utils.c:259-265` and `317-322`, with the argument checks of `coport_cinvoke.c`.
* `Call.locked`: the acquisition, the copy, the stores and the release,
  `coport_ipc_utils.c:267-303` and `323-358`.

A call whose acquisition meets another status than `COPORT_OPEN` tries again. That is a step
that is not enabled here, since nothing changes in it. Beside the port, the state keeps the
bytes that sends accepted and the bytes that receives returned so far.
-/

set_option autoImplicit false

namespace Comsg.Libcomsg

/-- What the call computes from the length it read: `new_len`. -/
def Call.newLen (portSize : SizeT) : Call → SizeT
  | .cosend _ len => len + portSize
  | .corecv _ len => portSize - len

/-- The code of a call before it takes the port: the error it returns with, if it does. -/
def Call.refused (portSize : SizeT) : Call → Option Errno
  | .cosend buf len =>
    match validateCoportOpArgs buf len with
    | some error => some error
    | none       => if bufLen < len + portSize then some .ewouldblock else none
  | .corecv buf len =>
    match validateCoportOpArgs buf len with
    | some error => some error
    | none       => if buf.length < len.toNat then some .emsgsize else none

/-- The code of a call from the acquisition of the port on. -/
def Call.locked (port : Cochannel) (portSize : SizeT) (call : Call) :
    Option (Cochannel × Reply) := do
  let status ← acquireCoportStatus port.status .coportOpen
  if status = .coportClosing ∨ status = .coportClosed then some (port, .err .epipe)
  else
    let held := { port with status := .coportBusy }
    match call with
    | .cosend buf len => held.sendLocked buf len (call.newLen portSize)
    | .corecv buf len => held.recvLocked buf len (call.newLen portSize)

/-- A call on its own is its two parts, one after the other. -/
theorem Call.run_eq (port : Cochannel) (call : Call) : call.run port =
    match call.refused port.length with
    | some error => some (port, .err error)
    | none       => call.locked port port.length := by
  cases call with
  | cosend buf len =>
    cases hv : validateCoportOpArgs buf len with
    | some error => simp [Call.run, cosendImplCochannel, Call.refused, hv]
    | none =>
      simp only [Call.run, cosendImplCochannel, Call.refused, hv, Cochannel.cochannelSend]
      split <;> rfl
  | corecv buf len =>
    cases hv : validateCoportOpArgs buf len with
    | some error => simp [Call.run, corecvImplCochannel, Call.refused, hv]
    | none =>
      simp only [Call.run, corecvImplCochannel, Call.refused, hv, Cochannel.cochannelRecv]
      split <;> rfl

/-- A call between its two parts, with the length it read. -/
structure Pending where
  call : Call
  portSize : SizeT
  deriving DecidableEq, Repr

/-- A cochannel with the calls in progress. -/
structure Channel where
  port : Cochannel
  calls : Nat → Option Pending
  /-- The bytes of the completed sends, oldest first. -/
  accepted : List UInt8
  /-- The bytes of the completed receives, oldest first. -/
  returned : List UInt8

/-- A fresh cochannel that nobody uses. -/
def initChannel (contents : Vector UInt8 coportBufLen) : Channel where
  port := initCochannel contents
  calls := fun _ => none
  accepted := []
  returned := []

/-- The two steps of a call of thread `t`. -/
inductive ChannelAct
  | start (t : Nat) (call : Call)
  | locked (t : Nat)
  deriving DecidableEq, Repr

namespace Channel

/-- The bytes a reply accepts from the caller's buffer. -/
def sentBytes : Call → Reply → List UInt8
  | .cosend buf _, .sent n => buf.take n.toNat
  | _, _                   => []

/-- The bytes a reply hands to the caller. -/
def takenBytes : Reply → List UInt8
  | .received n out => out.take n.toNat
  | _               => []

/-- The state after the second part of a call. -/
def finish (s : Channel) (t : Nat) (call : Call) (port : Cochannel) (reply : Reply) : Channel where
  port := port
  calls := Function.update s.calls t none
  accepted := s.accepted ++ sentBytes call reply
  returned := s.returned ++ takenBytes reply

/-- One step of one thread. -/
def step (s : Channel) : ChannelAct → Option Channel
  | .start t call =>
    match s.calls t with
    | some _ => none
    | none   =>
      match call.refused s.port.length with
      | some _ => some s
      | none   =>
        some { s with calls := Function.update s.calls t (some ⟨call, s.port.length⟩) }
  | .locked t =>
    match s.calls t with
    | none   => none
    | some p => (p.call.locked s.port p.portSize).map fun (port, reply) =>
        s.finish t p.call port reply

end Channel

end Comsg.Libcomsg
