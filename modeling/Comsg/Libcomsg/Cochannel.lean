import Comsg.Include.Coport
import Comsg.Lib.Memcpy

/-!
# `Comsg.Libcomsg.Cochannel`: send and receive on a cochannel

A cochannel is a ring of `COPORT_BUF_LEN` bytes that senders and receivers work on themselves.
The functions follow `lib/comsg/coport_ipc_utils.c` and `lib/comsg/coport_cinvoke.c`.

* `acquireCoportStatus`: `coport_ipc_utils.c:167-203`, one round of its loop.
* `cochannelSend`, `sendLocked`: `cochannel_send`, `coport_ipc_utils.c:250-306`.
* `cochannelRecv`, `recvLocked`: `cochannel_recv`, `coport_ipc_utils.c:308-360`.
* `validateCoportOpArgs`: `coport_cinvoke.c:76-85`.
* `cosendImplCochannel`, `corecvImplCochannel`: the entry points that check the arguments.

`size_t` is `BitVec 64`, and its arithmetic wraps. A buffer is the list of bytes under its
capability. `port->buffer->buf` has the `COPORT_BUF_LEN` bytes that `init_coport` allocates.
A call that faults, or that waits for a status that does not come, does not return (`none`).
-/

set_option autoImplicit false

namespace Comsg.Libcomsg

open Comsg.Lib

abbrev SizeT := BitVec 64

/-- `COPORT_BUF_LEN` as a `size_t`. -/
def bufLen : SizeT := BitVec.ofNat 64 coportBufLen

/-- A cochannel: `coport_info_t` and the bytes of the buffer. -/
structure Cochannel where
  length : SizeT
  start : SizeT
  end_ : SizeT
  status : CoportStatus
  event : CoportEventmask
  buf : List UInt8
  deriving DecidableEq, Repr

/-- The state `init_coport` leaves for a `COCHANNEL`. The contents of the buffer are whatever
`malloc` returned. -/
def initCochannel (contents : Vector UInt8 coportBufLen) : Cochannel where
  length := 0
  start := 0
  end_ := 0
  status := .coportOpen
  event := copollInitEvents
  buf := contents.toList

/-- What a call returns. A receive also fills the caller's buffer. -/
inductive Reply
  | sent (n : SizeT)
  | received (n : SizeT) (buf : List UInt8)
  | err (error : Errno)
  deriving DecidableEq, Repr

/-- One round of `acquire_coport_status`: the status it returns. A status other than the
expected one, `COPORT_CLOSING` and `COPORT_CLOSED` makes it try again. -/
def acquireCoportStatus (status expected : CoportStatus) : Option CoportStatus :=
  if status = expected then some expected
  else
    match status with
    | .coportClosing => some .coportClosing
    | .coportClosed  => some .coportClosed
    | _              => none

namespace Cochannel

/-! ### `cochannel_send` -/

/-- The event mask a send stores. -/
def sentEvent (event : CoportEventmask) (newLen : SizeT) : CoportEventmask :=
  if newLen = bufLen then (event ||| copollIn) &&& ~~~copollOut else event ||| copollIn

/-- The copy of a send, in two parts where it runs over the end of the ring. Returns the new
bytes of the ring and `copied_bytes`. -/
def copyIn (port : Cochannel) (buf : List UInt8) (len : SizeT) : Option (List UInt8 × SizeT) :=
  let newEnd := (port.end_ + len) % bufLen
  let toEnd := bufLen - port.end_
  if bufLen < port.end_ + len then do
    let first ← memcpy port.buf port.end_.toNat buf 0 toEnd.toNat
    let both ← memcpy first 0 buf toEnd.toNat newEnd.toNat
    some (both, toEnd + newEnd)
  else do
    let ring ← memcpy port.buf port.end_.toNat buf 0 len.toNat
    some (ring, len)

/-- `cochannel_send` from its acquisition of the port to its release. `newLen` was computed
from the length it read before. -/
def sendLocked (port : Cochannel) (buf : List UInt8) (len newLen : SizeT) :
    Option (Cochannel × Reply) :=
  if Meets port.event copollOut then do
    let (ring, copied) ← port.copyIn buf len
    some ({ port with
      buf := ring
      end_ := (port.end_ + len) % bufLen
      length := newLen
      event := sentEvent port.event newLen
      status := .coportOpen }, .sent copied)
  else some ({ port with status := .coportOpen }, .err .eagain)

/-- `cochannel_send`. -/
def cochannelSend (port : Cochannel) (buf : List UInt8) (len : SizeT) :
    Option (Cochannel × Reply) :=
  -- The sum of two `size_t` values, modulo 2^64.
  let newLen := len + port.length
  if bufLen < newLen then some (port, .err .ewouldblock)
  else do
    let status ← acquireCoportStatus port.status .coportOpen
    if status = .coportClosing ∨ status = .coportClosed then some (port, .err .epipe)
    else sendLocked { port with status := .coportBusy } buf len newLen

/-! ### `cochannel_recv` -/

/-- The event mask a receive stores. -/
def takenEvent (event : CoportEventmask) (newLen : SizeT) : CoportEventmask :=
  if newLen = 0 then (event ||| copollOut) &&& ~~~copollIn else event ||| copollOut

/-- The copy of a receive into the caller's buffer. The end of the ring is the length of its
capability here. -/
def copyOut (port : Cochannel) (buf : List UInt8) (len : SizeT) : Option (List UInt8) :=
  let portBufLen := BitVec.ofNat 64 port.buf.length
  let newStart := (port.start + len) % bufLen
  if portBufLen < port.start + len then do
    let lenToEnd := portBufLen - port.start
    let first ← memcpy buf 0 port.buf port.start.toNat lenToEnd.toNat
    memcpy first lenToEnd.toNat port.buf 0 newStart.toNat
  else memcpy buf 0 port.buf port.start.toNat len.toNat

/-- `cochannel_recv` from its acquisition of the port to its release. -/
def recvLocked (port : Cochannel) (buf : List UInt8) (len newLen : SizeT) :
    Option (Cochannel × Reply) :=
  if Meets port.event copollIn then do
    let out ← port.copyOut buf len
    some ({ port with
      length := newLen
      start := (port.start + len) % bufLen
      event := takenEvent port.event newLen
      status := .coportOpen }, .received len out)
  else some ({ port with status := .coportOpen }, .err .eagain)

/-- `cochannel_recv`. Nothing compares `len` with the length of the contents. -/
def cochannelRecv (port : Cochannel) (buf : List UInt8) (len : SizeT) :
    Option (Cochannel × Reply) :=
  if buf.length < len.toNat then some (port, .err .emsgsize)
  else do
    -- This wraps when less than `len` is there.
    let newLen := port.length - len
    let status ← acquireCoportStatus port.status .coportOpen
    if status = .coportClosing ∨ status = .coportClosed then some (port, .err .epipe)
    else recvLocked { port with status := .coportBusy } buf len newLen

end Cochannel

/-! ### The calls -/

/-- `validate_coport_op_args`. -/
def validateCoportOpArgs (buf : List UInt8) (len : SizeT) : Option Errno :=
  if buf.length < len.toNat then some .enobufs
  else if len = 0 then some .einval
  else none

/-- `cosend_impl_cochannel`. -/
def cosendImplCochannel (port : Cochannel) (buf : List UInt8) (len : SizeT) :
    Option (Cochannel × Reply) :=
  match validateCoportOpArgs buf len with
  | some error => some (port, .err error)
  | none       => port.cochannelSend buf len

/-- `corecv_impl_cochannel`. -/
def corecvImplCochannel (port : Cochannel) (buf : List UInt8) (len : SizeT) :
    Option (Cochannel × Reply) :=
  match validateCoportOpArgs buf len with
  | some error => some (port, .err error)
  | none       => port.cochannelRecv buf len

/-- A call on a cochannel, with the caller's buffer. -/
inductive Call
  | cosend (buf : List UInt8) (len : SizeT)
  | corecv (buf : List UInt8) (len : SizeT)
  deriving DecidableEq, Repr

/-- One call. -/
def Call.run (port : Cochannel) : Call → Option (Cochannel × Reply)
  | .cosend buf len => cosendImplCochannel port buf len
  | .corecv buf len => corecvImplCochannel port buf len

/-- The state after a call, for calls that are executed one at a time. -/
def cochannelStep (port : Cochannel) (call : Call) : Option Cochannel :=
  (call.run port).map Prod.fst

end Comsg.Libcomsg
