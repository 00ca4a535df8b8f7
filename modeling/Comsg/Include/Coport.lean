import Comsg.Lib.Mask

/-!
# `Comsg.Include.Coport`: the types and constants of `include/comsg/coport.h`

The status word, the event masks and the sizes that ipcd and libcomsg share. The tests of
single flags are reduced to bits of the mask here, once for all coport types.
-/

set_option autoImplicit false

namespace Comsg

open Comsg.Lib

/-- `coport_status_t`. -/
inductive CoportStatus
  | coportClosed
  | coportOpen
  | coportBusy
  | coportReady
  | coportDone
  | coportClosing
  | coportPolling
  deriving DecidableEq, Repr

/-- `coport_type_t`, without `INVALID_COPORT`. -/
inductive CoportType
  | copipe
  | cocarrier
  | cochannel
  deriving DecidableEq, Repr

/-- The integer of a coport type. -/
def CoportType.toInt : CoportType → Int
  | .copipe    => 1
  | .cocarrier => 2
  | .cochannel => 3

/-- `coport_eventmask_t`. The enumeration is used as a set of bits, and a client may pass
any value of its underlying type. -/
abbrev CoportEventmask := BitVec 32

def noevent : CoportEventmask := 0
def copollClosed : CoportEventmask := BitVec.twoPow 32 0
def copollIn : CoportEventmask := BitVec.twoPow 32 1
def copollOut : CoportEventmask := BitVec.twoPow 32 2
def copollRerr : CoportEventmask := BitVec.twoPow 32 3
def copollWerr : CoportEventmask := BitVec.twoPow 32 4

/-- `COPOLL_INIT_EVENTS`. -/
def copollInitEvents : CoportEventmask := copollOut

/-- The size of a capability in bytes on the 128-bit CHERI targets. -/
def chericapSize : Nat := 16

def coportBufLen : Nat := 4096

/-- `COCARRIER_SIZE`: the message pointers that fit in the port's buffer. -/
def cocarrierSize : Nat := coportBufLen / chericapSize

/-- `COCARRIER_MAX_MSG_LEN`. -/
def cocarrierMaxMsgLen : Nat := 1024 * 1024 * 2

/-- The error numbers the modelled functions return. -/
inductive Errno
  | eagain
  | epipe
  | einval
  | ewouldblock
  | emsgsize
  | enobufs
  | eprot
  | eacces
  | eexist
  | enoent
  | eperm
  | enodev
  | eintegrity
  | enosys
  | enomem
  deriving DecidableEq, Repr

/-! ### Single flags as bits -/

theorem meets_closed (ev : CoportEventmask) : Meets ev copollClosed ↔ ev.getLsbD 0 = true :=
  meets_twoPow ev 0

theorem meets_in (ev : CoportEventmask) : Meets ev copollIn ↔ ev.getLsbD 1 = true :=
  meets_twoPow ev 1

theorem meets_out (ev : CoportEventmask) : Meets ev copollOut ↔ ev.getLsbD 2 = true :=
  meets_twoPow ev 2

end Comsg
