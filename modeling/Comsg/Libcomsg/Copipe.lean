import Comsg.Libcomsg.Cochannel
import Mathlib.Logic.Function.Basic

/-!
# `Comsg.Libcomsg.Copipe`: the rendezvous on a copipe

A copipe has no buffer of its own. A receiver publishes its buffer and waits, and a sender
copies its message right into it. The status word is the lock and the handshake at once. This
module runs any number of receives, sends and closes on one copipe.

* `copipe_recv`: `coport_ipc_utils.c:361-408`, the program counters `recv*`.
* `copipe_send`: `coport_ipc_utils.c:219-248`, the program counters `send*`.
* `coport_close`: `ipcd/coclose.c:49-85`, the program counters `close*`.

One step of a thread is one round of `acquire_coport_status` (a compare-exchange), the work
between an acquisition and a release, or a releasing store. A round that fails without meeting
a closed port leaves the state as it was. A thread that faults takes no more steps.

`mem` holds the bytes under the buffers of the receivers, and only the copies of sends write it
here. The addresses of the capabilities are their bases. The entry points `corecv_impl_copipe`
and `cosend_impl_copipe` check the arguments first (`validateCoportOpArgs`). `log` records the
publications, copies, releases of `COPORT_DONE` and completions in their order.
-/

set_option autoImplicit false

namespace Comsg.Libcomsg

open Comsg.Lib

/-- The capability of a receive buffer. `obj` names the memory it gives access to. -/
structure BufCap where
  tag : Bool
  obj : Nat
  length : Nat
  deriving DecidableEq, Repr

/-- `NULL` as a buffer. -/
def nullBuf : BufCap := ⟨false, 0, 0⟩

/-- The bounds `copipe_recv` gives the buffer: `cheri_setbounds` where it is longer than
`len`. -/
def BufCap.setbounds (buf : BufCap) (len : SizeT) : BufCap :=
  if len.toNat < buf.length then { buf with length := len.toNat } else buf

/-- What happened on the copipe. -/
inductive CopipeEvent
  /-- A receiver stored its buffer in the port. -/
  | publish (receiver : Nat) (buf : BufCap)
  /-- A sender copied `data` into `buf`. -/
  | copy (sender : Nat) (buf : BufCap) (data : List UInt8)
  /-- A sender stored `COPORT_DONE`. -/
  | done (sender : Nat)
  /-- A receiver completed. It returns `n`, and these are the first `n` bytes of its buffer. -/
  | complete (receiver : Nat) (n : SizeT) (bytes : List UInt8)
  deriving DecidableEq, Repr

/-- Where a thread is in its call. -/
inductive CopipePc
  | idle
  -- `copipe_recv`.
  | recvEnter (buf : BufCap)
  | recvHeld (buf : BufCap)
  | recvPublished (buf : BufCap)
  | recvWait (buf : BufCap)
  | recvTake (buf : BufCap)
  | recvTaken (buf : BufCap) (n : SizeT)
  -- `copipe_send`. `sendRelease` is before the releasing store of an error exit.
  | sendEnter (buf : List UInt8) (len : SizeT)
  | sendHeld (buf : List UInt8) (len : SizeT)
  | sendRelease (status : CoportStatus) (error : Errno)
  | sendCopied (len : SizeT)
  -- `coport_close`.
  | closeTest
  | closeEnter
  | closeHeld
  | closeMarked
  -- The call has returned.
  | returned (reply : Reply)
  | closed
  deriving DecidableEq, Repr

/-- A copipe with the threads that use it. -/
structure Copipe where
  status : CoportStatus
  buf : BufCap
  length : SizeT
  event : CoportEventmask
  mem : Nat → List UInt8
  pc : Nat → CopipePc
  log : List CopipeEvent

/-- The state `init_coport` leaves for a `COPIPE`, with the memory `mem` of the clients. -/
def initCopipe (mem : Nat → List UInt8) : Copipe where
  status := .coportOpen
  buf := nullBuf
  length := BitVec.ofNat 64 chericapSize
  event := noevent
  mem := mem
  pc := fun _ => .idle
  log := []

/-- The calls on a copipe. -/
inductive CopipeCall
  | corecv (buf : BufCap) (len : SizeT)
  | cosend (buf : List UInt8) (len : SizeT)
  | coclose
  deriving DecidableEq, Repr

/-- A thread starts a call, or takes its next step. -/
inductive CopipeAct
  | call (t : Nat) (call : CopipeCall)
  | step (t : Nat)
  deriving DecidableEq, Repr

namespace Copipe

/-- Thread `t` goes to `pc`. -/
def goto (s : Copipe) (t : Nat) (pc : CopipePc) : Copipe :=
  { s with pc := Function.update s.pc t pc }

/-- Append to the log. -/
def note (s : Copipe) (e : CopipeEvent) : Copipe :=
  { s with log := s.log ++ [e] }

/-- One round of `acquire_coport_status(port, expected, COPORT_BUSY, len)` in thread `t`, which
goes to `next` with the port, or returns `EPIPE`. -/
def acquire (s : Copipe) (t : Nat) (expected : CoportStatus) (next : CopipePc) : Copipe :=
  match acquireCoportStatus s.status expected with
  | none => s
  | some status =>
    if status = .coportClosing ∨ status = .coportClosed then s.goto t (.returned (.err .epipe))
    else { s with status := .coportBusy }.goto t next

/-- The first steps of a call: the checks of its arguments. -/
def enter : CopipeCall → CopipePc
  | .corecv buf len =>
    -- `validate_coport_op_args`, and then the test of `copipe_recv` itself.
    if buf.length < len.toNat then .returned (.err .enobufs)
    else if len = 0 then .returned (.err .einval)
    else if buf.length < len.toNat then .returned (.err .emsgsize)
    else .recvEnter (buf.setbounds len)
  | .cosend buf len =>
    match validateCoportOpArgs buf len with
    | some error => .returned (.err error)
    | none       => .sendEnter buf len
  | .coclose => .closeTest

/-- The work of a send that holds the port. -/
def sendWork (s : Copipe) (t : Nat) (buf : List UInt8) (len : SizeT) : Option Copipe :=
  let outBuffer := s.buf
  if outBuffer.tag = false then some (s.goto t (.sendRelease .coportDone .eprot))
  else if outBuffer.length < len.toNat then some (s.goto t (.sendRelease .coportReady .emsgsize))
  else do
    let bytes ← memcpy (s.mem outBuffer.obj) 0 buf 0 len.toNat
    some (({ s with
      mem := Function.update s.mem outBuffer.obj bytes
      length := len }.goto t (.sendCopied len)).note (.copy t outBuffer (buf.take len.toNat)))

/-- A releasing store of a sender. The log records `COPORT_DONE`. -/
def sendStore (s : Copipe) (t : Nat) (status : CoportStatus) (reply : Reply) : Copipe :=
  let s' := { s with status := status }.goto t (.returned reply)
  if status = .coportDone then s'.note (.done t) else s'

/-- The next step of thread `t`. -/
def next (s : Copipe) (t : Nat) : Option Copipe :=
  match s.pc t with
  | .idle | .returned _ | .closed => none
  | .recvEnter buf => some (s.acquire t .coportOpen (.recvHeld buf))
  | .recvHeld buf =>
    some (({ s with buf := buf }.goto t (.recvPublished buf)).note (.publish t buf))
  | .recvPublished buf => some ({ s with status := .coportReady }.goto t (.recvWait buf))
  | .recvWait buf => some (s.acquire t .coportDone (.recvTake buf))
  | .recvTake buf =>
    some ({ s with buf := nullBuf, length := 0 }.goto t (.recvTaken buf s.length))
  | .recvTaken buf n =>
    let bytes := (s.mem buf.obj).take n.toNat
    some (({ s with status := .coportOpen }.goto t (.returned (.received n bytes))).note
      (.complete t n bytes))
  | .sendEnter buf len => some (s.acquire t .coportReady (.sendHeld buf len))
  | .sendHeld buf len => s.sendWork t buf len
  | .sendRelease status error => some (s.sendStore t status (.err error))
  | .sendCopied len => some (s.sendStore t .coportDone (.sent len))
  | .closeTest =>
    if s.status = .coportClosed ∨ s.status = .coportClosing then
      some (s.goto t (.returned (.err .epipe)))
    else some (s.goto t .closeEnter)
  -- The loop of `coport_close` is that of `acquire_coport_status`.
  | .closeEnter => some (s.acquire t .coportOpen .closeHeld)
  | .closeHeld =>
    some ({ s with event := s.event &&& ~~~copollOut ||| copollClosed }.goto t .closeMarked)
  | .closeMarked => some ({ s with status := .coportClosing }.goto t .closed)

/-- One action. A thread starts a new call when it has none. -/
def step (s : Copipe) : CopipeAct → Option Copipe
  | .call t call =>
    match s.pc t with
    | .idle | .returned _ | .closed => some (s.goto t (enter call))
    | _ => none
  | .step t => s.next t

end Copipe

end Comsg.Libcomsg
