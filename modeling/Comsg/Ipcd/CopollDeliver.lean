import Comsg.Ipcd.Coport
import Comsg.Lib.Transition

/-!
# `Comsg.Ipcd.CopollDeliver`: the event queues of the notifiers

`copoll_deliver.c` without the delivery itself: the queue of each notifier,
`put_coport_event`, and one pass of the loop body of `copoll_deliver`. A coport is named by
its index in the cocarrier table.

The queue and the counter `next_event` are touched only under the copoll mutex, so a call of
`put_coport_event` and a pass of the loop are single steps of `notifierStep`. The answer of a
step are the coports it passes to `process_coport_event`. A NULL entry is passed as well and
returns at once (`copoll_deliver.c:57`). It is not part of the answer.
-/

set_option autoImplicit false

namespace Comsg.Ipcd

open Comsg.Lib

def nCopollNotifiers : Nat := 4

def coportEventqueueLen : Nat := 32

/-- `sizeof(coport_t)`: three capabilities, and the type padded to a fourth. -/
def sizeofCoport : Nat := 4 * chericapSize

/-- `sizeof(coport_tbl_entry_t)`: a coport, and a counter padded to a capability. -/
def sizeofCoportTblEntry : Nat := 5 * chericapSize

/-- The address of the first table entry minus the address of entry `coport`, in 64 bits. The
subtraction of `get_coport_notifier_index` wraps for every entry but the first. -/
def notifierDistance (coport : Nat) : Nat :=
  (2 ^ 64 - coport * sizeofCoportTblEntry % 2 ^ 64) % 2 ^ 64

/-- `get_coport_notifier_index`. -/
def getCoportNotifierIndex (coport : Nat) : Fin nCopollNotifiers :=
  ⟨notifierDistance coport / sizeofCoport % nCopollNotifiers, Nat.mod_lt _ (by decide)⟩

/-- `copoll_notifier_t`. The queue is an array of `COPORT_EVENTQUEUE_LEN` entries, `none` is
NULL. -/
structure CopollNotifier where
  eventQueue : List (Option Nat)
  nextEvent : Nat
  deriving DecidableEq, Repr

namespace CopollNotifier

/-- A notifier after `setup_copoll_notifiers`. -/
def init : CopollNotifier where
  eventQueue := List.replicate coportEventqueueLen none
  nextEvent := 0

/-- `put_coport_event` on its notifier. `none` is the failed assertion, which aborts ipcd. -/
def putCoportEvent (n : CopollNotifier) (coport : Nat) : Option CopollNotifier :=
  if n.nextEvent < coportEventqueueLen then
    some { eventQueue := n.eventQueue.set n.nextEvent (some coport), nextEvent := n.nextEvent + 1 }
  else none

/-- The `for` loop of `copoll_deliver` from entry `i` on, with `k` entries to go. It returns
the queue it leaves and the coports it passes on. -/
def deliverFrom (queue : List (Option Nat)) (i : Nat) : Nat → List (Option Nat) × List Nat
  | 0     => (queue, [])
  | k + 1 =>
    -- A NULL entry is passed over. The entry is set to NULL in either case.
    let coport := queue[i]?.join
    let (queue', rest) := deliverFrom (queue.set i none) (i + 1) k
    (queue', coport.toList ++ rest)

/-- One pass of the loop body of `copoll_deliver`. `next_event` is read and not written. -/
def copollDeliver (n : CopollNotifier) : CopollNotifier × List Nat :=
  let (queue, passed) := deliverFrom n.eventQueue 0 n.nextEvent
  ({ n with eventQueue := queue }, passed)

end CopollNotifier

/-- A call of `put_coport_event`, or a wake-up of a notifier. -/
inductive NotifierAct
  | put (coport : Nat)
  | wake (n : Fin nCopollNotifiers)
  deriving DecidableEq, Repr

/-- One step of the notifiers, with the coports it passes to `process_coport_event`. -/
def notifierStep (notifiers : Fin nCopollNotifiers → CopollNotifier) :
    NotifierAct → Option ((Fin nCopollNotifiers → CopollNotifier) × List Nat)
  | .put coport =>
    let i := getCoportNotifierIndex coport
    ((notifiers i).putCoportEvent coport).map fun n => (Function.update notifiers i n, [])
  | .wake i =>
    let pass := (notifiers i).copollDeliver
    some (Function.update notifiers i pass.1, pass.2)

/-- The notifiers after `setup_copoll_notifiers`. -/
def initNotifiers : Fin nCopollNotifiers → CopollNotifier := fun _ => .init

end Comsg.Ipcd
