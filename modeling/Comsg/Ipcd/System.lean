import Comsg.Ipcd.Cocarrier
import Comsg.Ipcd.CopollDeliver

/-!
# `Comsg.Ipcd.System`: ipcd's threads on any number of cocarriers

The handlers of `cosend.c`, `corecv.c`, `coclose.c` and `copoll.c` run in one thread for each
client, next to the notifier threads of `copoll_deliver.c`. This module interleaves them. The
shared state is the table of cocarriers, the copoll mutex, the notifiers' queues and the
listener records. Each thread has a program counter `Pc` with its local variables.

One step of a thread is one of these.

* One compare-exchange on a status word, one load of it, or one releasing store.
* The work between acquisition and release (`Comsg.Ipcd.Coport`). Whoever holds the status
  word is alone on the fields it works on, so the work is one step.
* One operation on the copoll mutex, together with the code up to the next shared access.
* One unlocked read: an event mask in `inspect_events`, the test of `copoll_notify`, the reads
  of `cocarrier_recv` after its release.

A thread that waits for the mutex has no step while somebody else holds it. A failed
compare-exchange that changes nothing is a step from a state to itself. A compare-exchange
that fails may still change the loop variable `status` of a receive or of a delivery, which is
why these are part of the program counter.

`Act.wake` returns from `pthread_cond_wait` or `pthread_cond_timedwait`. It is possible at any
time, as a signal, a timeout or a spurious wake-up. A failed assertion sets `aborted`, and
nothing runs afterwards. The start is the daemon at the moment it begins to serve: every
cocarrier is as `init_coport` left it, and every notifier waits for its first event.

The part of a handler before its first access to shared state is left out (validation of the
arguments, the sender's copy of the message). So is `cocarrier_poll`, which reads the event
masks as `inspect_events` does here and replies, and the store `removed = true` that ends an
unregistration, which nobody reads.
-/

set_option autoImplicit false

namespace Comsg.Ipcd

open Comsg.Lib

/-- A thread of ipcd: one that serves a client, or a notifier. -/
inductive Party
  | client (t : Nat)
  | notifier (n : Fin nCopollNotifiers)
  deriving DecidableEq, Repr

/-- The fields of `pollcoport_t` that a client fills in. -/
structure PollTarget where
  coport : Nat
  events : CoportEventmask
  deriving DecidableEq, Repr

/-- The arguments of a slow poll. `poller` is the thread whose `listen_entries` the call
uses. -/
structure PollArgs where
  poller : Nat
  coports : List PollTarget
  timeout : Int
  deriving DecidableEq, Repr

/-- The fields of `coport_listener_t` that a delivery writes. -/
structure Listener where
  revent : CoportEventmask
  removed : Bool
  deriving DecidableEq, Repr

/-- What `init_listeners` stores. -/
def Listener.fresh : Listener := { revent := noevent, removed := false }

/-- The answer of a request. A poll returns the `revents` of its entries. -/
inductive Answer
  | reply (r : Reply)
  | polled (revents : List CoportEventmask)
  deriving DecidableEq, Repr

/-- The number of entries with an event, which a poll returns. -/
def matchedEvents (revents : List CoportEventmask) : Nat := revents.countP (· ≠ noevent)

/-- The last loop of `wait_for_events`, with `n` entries from `i` on still to do: the `revents` it
stores, and what it adds to `matched`. -/
def collectRevents (listener : Nat → Listener) (i : Nat) : Nat → List CoportEventmask × Nat
  | 0     => ([], 0)
  | n + 1 =>
    let revents := (listener i).revent
    let (rest, matched) := collectRevents listener (i + 1) n
    (revents :: rest, if revents ≠ noevent then matched + 1 else matched)

/-- Where a thread continues after its releasing store. -/
inductive After
  | answer (a : Answer)
  | read (index : Nat)
  | notify (event : CoportEventmask) (a : Answer)
  | register (args : PollArgs) (i : Nat)
  | unregister (args : PollArgs) (i : Nat)
  | deliver (i nEvents : Nat)
  deriving DecidableEq, Repr

/-- The program counter of a thread. -/
inductive Pc
  /-- No request yet. -/
  | idle
  /-- The last request has its answer. -/
  | answered (a : Answer)
  /-- The loop of `cocarrier_send`. -/
  | sendAcquire (p : Nat) (msg : Message) (msgLen : Nat)
  | sendLocked (p : Nat) (msg : Message) (msgLen : Nat)
  /-- The loop of `cocarrier_recv`, with its variables `status` and `closing`. -/
  | recvAcquire (p : Nat) (status : CoportStatus) (closing : Bool)
  | recvLocked (p : Nat) (status : CoportStatus) (closing : Bool)
  /-- `cocarrier_recv` after its release, before it reads the slot. -/
  | recvRead (p index : Nat)
  /-- The first test of `coport_close`, and its loop. -/
  | closeTest (p : Nat)
  | closeAcquire (p : Nat)
  | closeLocked (p : Nat)
  /-- The work is done, `status` is about to be stored. -/
  | release (p : Nat) (status : CoportStatus) (after : After)
  /-- `copoll_notify`: the test, the queueing branch, and the other one. -/
  | notifyTest (p : Nat) (event : CoportEventmask) (a : Answer)
  | notifyLock (p : Nat) (a : Answer)
  | notifyPut (p : Nat) (a : Answer)
  | notifyUnlock (p : Nat) (a : Answer)
  | notifyOpen (p : Nat) (a : Answer)
  /-- `inspect_events` at entry `i`. -/
  | inspect (args : PollArgs) (i : Nat) (revents : List CoportEventmask)
  /-- `wait_for_events`. -/
  | pollLock (args : PollArgs)
  | register (args : PollArgs) (i : Nat)
  | registerAcquire (args : PollArgs) (i : Nat) (target : PollTarget)
  | registerLocked (args : PollArgs) (i : Nat) (target : PollTarget)
  | asleep (args : PollArgs)
  | relock (args : PollArgs)
  | unregister (args : PollArgs) (i : Nat)
  | unregisterAcquire (args : PollArgs) (i : Nat) (target : PollTarget)
  | unregisterLocked (args : PollArgs) (i : Nat) (target : PollTarget)
  | pollFinish (args : PollArgs)
  /-- `copoll_deliver`: in `await_copoll_events`, and back from it without the mutex. -/
  | napping
  | notifierRelock
  /-- The loop of `copoll_deliver` at entry `i` of `nEvents`. -/
  | deliver (i nEvents : Nat)
  /-- The loop of `process_coport_event`, with its variable `status`. -/
  | deliverAcquire (i nEvents p : Nat) (status : CoportStatus)
  | deliverLocked (i nEvents p : Nat) (status : CoportStatus)
  deriving DecidableEq, Repr

/-- The assertions of the modelled functions. -/
inductive Assertion
  /-- `put_coport_event`: `event_idx < COPORT_EVENTQUEUE_LEN`. -/
  | eventIdx
  /-- `process_coport_event`: `(coport_event & levent) != NOEVENT`. -/
  | coportEvent
  /-- `wait_for_events`: `revent != NOEVENT` for a removed listener. -/
  | listenerRevent
  /-- `wait_for_events`: `matched != 0 || timeout > 0`. -/
  | matchedEvents
  deriving DecidableEq, Repr

/-- The state of ipcd. -/
structure Sys where
  port : Nat → Coport
  pc : Party → Pc
  /-- The holder of `global_copoll_lock`. -/
  mutex : Option Party
  queue : Fin nCopollNotifiers → CopollNotifier
  /-- The notifier waits, and `notifier_wakeup` was signalled. -/
  signalled : Fin nCopollNotifiers → Bool
  /-- `listener t i` is the `i`-th of the `listen_entries` of thread `t`. -/
  listener : Nat → Nat → Listener
  /-- The assertion that failed. -/
  aborted : Option Assertion

/-- ipcd when it begins to serve. -/
def initSys : Sys where
  port := fun _ => initCoport
  pc := fun
    | .client _   => .idle
    | .notifier _ => .napping
  mutex := none
  queue := initNotifiers
  signalled := fun _ => false
  listener := fun _ _ => .fresh
  aborted := none

namespace Sys

/-- Thread `x` goes to `c`. -/
def goto (s : Sys) (x : Party) (c : Pc) : Sys := { s with pc := Function.update s.pc x c }

/-- Port `p` becomes `port`. -/
def setPort (s : Sys) (p : Nat) (port : Coport) : Sys :=
  { s with port := Function.update s.port p port }

/-- A store to the status of port `p`. -/
def setStatus (s : Sys) (p : Nat) (status : CoportStatus) : Sys :=
  s.setPort p ((s.port p).setStatus status)

def abort (s : Sys) (a : Assertion) : Sys := { s with aborted := some a }

/-- Thread `x` takes the copoll mutex and goes to `c`. It waits while the mutex is taken. -/
def lockMutex (s : Sys) (x : Party) (c : Pc) : Option Sys :=
  match s.mutex with
  | none   => some ({ s with mutex := some x }.goto x c)
  | some _ => none

/-- `release_copoll_mutex`. -/
def unlockMutex (s : Sys) : Sys := { s with mutex := none }

/-- `pthread_cond_signal` on `notifier_wakeup`. It is lost on a notifier that does not wait. -/
def signal (s : Sys) (n : Fin nCopollNotifiers) : Sys :=
  if s.pc (.notifier n) = .napping then { s with signalled := Function.update s.signalled n true }
  else s

/-- `put_coport_event`, followed by the step to `c`. -/
def putCoportEvent (s : Sys) (x : Party) (p : Nat) (c : Pc) : Sys :=
  let n := getCoportNotifierIndex p
  match (s.queue n).putCoportEvent p with
  | none   => s.abort .eventIdx
  | some q => ({ s with queue := Function.update s.queue n q }.signal n).goto x c

/-- `event_queue[i] = NULL` for notifier `n`. -/
def clearEntry (s : Sys) (n : Fin nCopollNotifiers) (i : Nat) : Sys :=
  let q := s.queue n
  { s with queue := Function.update s.queue n { q with eventQueue := q.eventQueue.set i none } }

/-- The listener records after a delivery on `port`. A listener that has an event gets its
`revent` and is marked as removed. -/
def deliverTo (listener : Nat → Nat → Listener) (port : Coport) : Nat → Nat → Listener :=
  fun t i =>
    match port.listeners.find? fun l => l.poller = t ∧ l.index = i ∧ port.matched l with
    | some l => { revent := port.event &&& l.events, removed := true }
    | none   => listener t i

/-- Where a thread stands after its releasing store to port `p`. -/
def resume (p : Nat) : After → Pc
  | .answer a          => .answered a
  | .read index        => .recvRead p index
  | .notify event a    => .notifyTest p event a
  | .register args i   => .register args i
  | .unregister args i => .unregister args i
  | .deliver i nEvents => .deliver i nEvents

/-! ### The steps of the handlers -/

/-- The locked section of `cocarrier_send`. -/
def sendWork (s : Sys) (x : Party) (p : Nat) (msg : Message) (msgLen : Nat) : Sys :=
  let port := s.port p
  if port.sendRefused then
    (s.setPort p port.refuseSend).goto x (.release p .coportOpen (.answer (.reply (.err .eagain))))
  else
    (s.setPort p (port.enqueue msg)).goto x
      (.release p .coportDone (.notify copollIn (.reply (.sent msgLen))))

/-- The loop of `cocarrier_recv`. The receive takes the port from the status it expects. A
`COPORT_CLOSING` it meets becomes the expected status and sets `closing`. -/
def recvAcquireStep (s : Sys) (x : Party) (p : Nat) (status : CoportStatus)
    (closing : Bool) : Sys :=
  if (s.port p).status = status then
    (s.setStatus p .coportBusy).goto x (.recvLocked p status closing)
  else
    match (s.port p).status with
    | .coportClosed  => s.goto x (.answered (.reply (.err .epipe)))
    | .coportClosing => s.goto x (.recvAcquire p .coportClosing true)
    | _              => s.goto x (.recvAcquire p .coportOpen closing)

/-- The locked section of `cocarrier_recv`. -/
def recvWork (s : Sys) (x : Party) (p : Nat) (status : CoportStatus) (closing : Bool) : Sys :=
  let port := s.port p
  if port.recvRefused then
    (s.setPort p port.refuseRecv).goto x (.release p .coportOpen (.answer (.reply (.err .eagain))))
  else
    (s.setPort p (port.dequeue closing)).goto x (.release p status (.read port.start))

/-- The loop of `cocarrier_send` and of `coport_close`: the port is taken from
`COPORT_OPEN` only, and a closed port ends the request with `EPIPE`. -/
def openAcquireStep (s : Sys) (x : Party) (p : Nat) (c : Pc) : Sys :=
  match (s.port p).status with
  | .coportOpen                    => (s.setStatus p .coportBusy).goto x c
  | .coportClosed | .coportClosing => s.goto x (.answered (.reply (.err .epipe)))
  | _                              => s

/-- The loops of `wait_for_events`: the port is taken from `COPORT_OPEN`, and every other
status is waited out. -/
def pollAcquireStep (s : Sys) (x : Party) (p : Nat) (c : Pc) : Sys :=
  if (s.port p).status = .coportOpen then (s.setStatus p .coportBusy).goto x c else s

/-- The end of `inspect_events`, and the choice of `cocarrier_poll_slow` between a reply and
`wait_for_events`. -/
def inspected (s : Sys) (x : Party) (args : PollArgs) (revents : List CoportEventmask) : Sys :=
  if args.timeout ≠ 0 ∧ matchedEvents revents = 0 then
    { s with listener := Function.update s.listener args.poller fun _ => .fresh }.goto x
      (.pollLock args)
  else s.goto x (.answered (.polled revents))

/-- The second loop of `wait_for_events` at entry `i`: a removed listener is skipped. -/
def unregisterStep (s : Sys) (x : Party) (args : PollArgs) (i : Nat) (target : PollTarget) : Sys :=
  let l := s.listener args.poller i
  if l.removed then
    if l.revent ≠ noevent then s.goto x (.unregister args (i + 1)) else s.abort .listenerRevent
  else s.goto x (.unregisterAcquire args i target)

/-- The end of `wait_for_events`, after it has let the mutex go. -/
def pollFinishStep (s : Sys) (x : Party) (args : PollArgs) : Sys :=
  let revents := (List.range args.coports.length).map fun i => (s.listener args.poller i).revent
  if matchedEvents revents ≠ 0 ∨ 0 < args.timeout then s.goto x (.answered (.polled revents))
  else s.abort .matchedEvents

/-- The loop of `copoll_deliver` at an entry that holds a coport: `process_coport_event`
returns at once when nobody listens. -/
def deliverStep (s : Sys) (x : Party) (n : Fin nCopollNotifiers) (i nEvents p : Nat) : Sys :=
  if (s.port p).listeners = [] then (s.clearEntry n i).goto x (.deliver (i + 1) nEvents)
  else s.goto x (.deliverAcquire i nEvents p .coportDone)

/-- The loop of `process_coport_event`. -/
def deliverAcquireStep (s : Sys) (x : Party) (i nEvents p : Nat) (status : CoportStatus) : Sys :=
  if (s.port p).status = status then
    (s.setStatus p .coportPolling).goto x (.deliverLocked i nEvents p status)
  else
    match (s.port p).status with
    | .coportClosing => s.goto x (.deliverAcquire i nEvents p .coportClosing)
    | .coportOpen    => s.goto x (.deliverAcquire i nEvents p .coportOpen)
    | _              => s.goto x (.deliverAcquire i nEvents p .coportDone)

/-- The locked section of `process_coport_event`. The queue entry is cleared here. Nobody
else looks at it before the notifier lets the mutex go. -/
def deliverWork (s : Sys) (x : Party) (n : Fin nCopollNotifiers) (i nEvents p : Nat)
    (status : CoportStatus) : Sys :=
  let port := s.port p
  if Meets port.event port.levent then
    ({ (s.setPort p port.deliver).clearEntry n i with
        listener := deliverTo s.listener port }).goto x
      (.release p (port.deliverStatus status) (.deliver (i + 1) nEvents))
  else s.abort .coportEvent

/-- One step of a notifier thread from `c`. -/
def notifierStep (s : Sys) (n : Fin nCopollNotifiers) (c : Pc) : Option Sys :=
  let x := Party.notifier n
  match c with
  | .notifierRelock => s.lockMutex x (.deliver 0 (s.queue n).nextEvent)
  | .deliver i nEvents =>
    if i < nEvents then
      match (s.queue n).eventQueue[i]?.join with
      | some p => some (s.deliverStep x n i nEvents p)
      | none   => some ((s.clearEntry n i).goto x (.deliver (i + 1) nEvents))
    -- `await_copoll_events` lets the mutex go while it waits.
    else some (s.unlockMutex.goto x .napping)
  | .deliverAcquire i nEvents p status => some (s.deliverAcquireStep x i nEvents p status)
  | .deliverLocked i nEvents p status => some (s.deliverWork x n i nEvents p status)
  | .release p status after => some ((s.setStatus p status).goto x (resume p after))
  | _ => none

/-- One step of a thread that serves a client, from `c`. -/
def clientStep (s : Sys) (t : Nat) (c : Pc) : Option Sys :=
  let x := Party.client t
  match c with
  -- `cocarrier_send`.
  | .sendAcquire p msg msgLen => some (s.openAcquireStep x p (.sendLocked p msg msgLen))
  | .sendLocked p msg msgLen => some (s.sendWork x p msg msgLen)
  -- `cocarrier_recv`. The slot is read after the port has been released.
  | .recvAcquire p status closing => some (s.recvAcquireStep x p status closing)
  | .recvLocked p status closing => some (s.recvWork x p status closing)
  | .recvRead p index =>
    some ((s.setPort p ((s.port p).markRecvd index)).goto x
      (.notifyTest p copollOut (.reply (.received ((s.port p).buf index).msg))))
  -- `coport_close`. The status is tested once before the loop, and again in it.
  | .closeTest p =>
    match (s.port p).status with
    | .coportClosed | .coportClosing => some (s.goto x (.answered (.reply (.err .epipe))))
    | _                              => some (s.goto x (.closeAcquire p))
  | .closeAcquire p => some (s.openAcquireStep x p (.closeLocked p))
  | .closeLocked p =>
    some ((s.setPort p (s.port p).markClosed).goto x
      (.release p .coportClosing (.answer (.reply .closed))))
  | .release p status after => some ((s.setStatus p status).goto x (resume p after))
  -- `copoll_notify`. Both branches work on what the test saw, without the port's lock.
  | .notifyTest p event a =>
    if (s.port p).announces event then some (s.goto x (.notifyLock p a))
    else some (s.goto x (.notifyOpen p a))
  | .notifyLock p a => s.lockMutex x (.notifyPut p a)
  | .notifyPut p a => some (s.putCoportEvent x p (.notifyUnlock p a))
  | .notifyUnlock _ a => some (s.unlockMutex.goto x (.answered a))
  | .notifyOpen p a =>
    if (s.port p).status = .coportDone then
      some ((s.setStatus p .coportOpen).goto x (.answered a))
    else some (s.goto x (.answered a))
  -- `cocarrier_poll_slow`: `inspect_events` reads the masks without any lock.
  | .inspect args i revents =>
    match args.coports[i]? with
    | some target =>
      some (s.goto x (.inspect args (i + 1)
        (revents ++ [target.events &&& (s.port target.coport).event])))
    | none => some (s.inspected x args revents)
  -- `wait_for_events`. The mutex is held from here to the sleep.
  | .pollLock args => s.lockMutex x (.register args 0)
  | .register args i =>
    match args.coports[i]? with
    | some target => some (s.goto x (.registerAcquire args i target))
    | none        => some (s.unlockMutex.goto x (.asleep args))
  | .registerAcquire args i target =>
    some (s.pollAcquireStep x target.coport (.registerLocked args i target))
  | .registerLocked args i target =>
    some ((s.setPort target.coport
      ((s.port target.coport).addListener ⟨args.poller, i, target.events⟩)).goto x
      (.release target.coport .coportOpen (.register args (i + 1))))
  -- Back from `copoll_wait`, with the mutex again.
  | .relock args => s.lockMutex x (.unregister args 0)
  | .unregister args i =>
    match args.coports[i]? with
    | some target => some (s.unregisterStep x args i target)
    | none        => some (s.unlockMutex.goto x (.pollFinish args))
  | .unregisterAcquire args i target =>
    some (s.pollAcquireStep x target.coport (.unregisterLocked args i target))
  | .unregisterLocked args i target =>
    some ((s.setPort target.coport
      ((s.port target.coport).removeListener ⟨args.poller, i, target.events⟩)).goto x
      (.release target.coport .coportOpen (.unregister args (i + 1))))
  | .pollFinish args => some (s.pollFinishStep x args)
  | _ => none

/-- One step of a thread. -/
def runStep (s : Sys) : Party → Option Sys
  | .client t   => s.clientStep t (s.pc (.client t))
  | .notifier n => s.notifierStep n (s.pc (.notifier n))

/-- A return from the condition variable. -/
def wakeStep (s : Sys) (x : Party) : Option Sys :=
  match x, s.pc x with
  | .client _, .asleep args => some (s.goto x (.relock args))
  | .notifier n, .napping   =>
    some ({ s with signalled := Function.update s.signalled n false }.goto x .notifierRelock)
  | _, _ => none

end Sys

/-- A request of a client. -/
inductive Request
  | cosend (p : Nat) (msg : Message) (msgLen : Nat)
  | corecv (p : Nat)
  | coclose (p : Nat)
  | slopoll (coports : List PollTarget) (timeout : Int)
  deriving DecidableEq, Repr

/-- Where the handler of a request begins. -/
def Request.entry (t : Nat) : Request → Pc
  | .cosend p msg msgLen     => .sendAcquire p msg msgLen
  | .corecv p                => .recvAcquire p .coportOpen false
  | .coclose p               => .closeTest p
  | .slopoll coports timeout => .inspect { poller := t, coports, timeout } 0 []

/-- An action of the system: a client makes a request, a thread takes a step, or a thread
returns from its condition variable. -/
inductive Act
  | call (t : Nat) (r : Request)
  | run (x : Party)
  | wake (x : Party)
  deriving DecidableEq, Repr

/-- The thread an action belongs to. -/
def Act.party : Act → Party
  | .call t _ => .client t
  | .run x    => x
  | .wake x   => x

/-- One step of ipcd. -/
def sysStep (s : Sys) (a : Act) : Option Sys :=
  if s.aborted.isSome then none
  else
    match a with
    | .call t r =>
      match s.pc (.client t) with
      | .idle | .answered _ => some (s.goto (.client t) (r.entry t))
      | _                   => none
    | .run x  => s.runStep x
    | .wake x => s.wakeStep x

end Comsg.Ipcd
