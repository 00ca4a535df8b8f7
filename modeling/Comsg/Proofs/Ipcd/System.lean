import Comsg.Ipcd.System
import Comsg.Proofs.Ipcd.Coport

/-!
# `Comsg.Proofs.Ipcd.System`: what one step of ipcd can do

`sysStep_effect` says once what a step does to the state, sorted by the part of the state it
touches. `Moves` lists the steps in which a thread only changes its own program counter,
`Acquires` the compare-exchanges that take a status word, `Works` the locked sections of the
requests, `Locks` and `Unlocks` the operations on the copoll mutex. Every invariant of the
system is proved by cases on `Effect`.

One of them is proved here, because the others rest on it. `mutexOk_reach` says that the
copoll mutex is held by the one thread whose program counter is in a section it protects.
-/

set_option autoImplicit false

namespace Comsg.Proofs.Ipcd

open Comsg.Lib
open Comsg.Ipcd

/-! ### The parts of a state after each primitive -/

namespace Sys

variable (s : Sys) (x : Party) (p : Nat)

@[simp] theorem goto_pc (c : Pc) : (s.goto x c).pc = Function.update s.pc x c := rfl
@[simp] theorem goto_port (c : Pc) : (s.goto x c).port = s.port := rfl
@[simp] theorem goto_mutex (c : Pc) : (s.goto x c).mutex = s.mutex := rfl
@[simp] theorem goto_queue (c : Pc) : (s.goto x c).queue = s.queue := rfl
@[simp] theorem goto_signalled (c : Pc) : (s.goto x c).signalled = s.signalled := rfl
@[simp] theorem goto_listener (c : Pc) : (s.goto x c).listener = s.listener := rfl
@[simp] theorem goto_aborted (c : Pc) : (s.goto x c).aborted = s.aborted := rfl

@[simp] theorem setPort_port (port : Coport) :
    (s.setPort p port).port = Function.update s.port p port := rfl
@[simp] theorem setPort_pc (port : Coport) : (s.setPort p port).pc = s.pc := rfl
@[simp] theorem setPort_mutex (port : Coport) : (s.setPort p port).mutex = s.mutex := rfl
@[simp] theorem setPort_queue (port : Coport) : (s.setPort p port).queue = s.queue := rfl
@[simp] theorem setPort_signalled (port : Coport) :
    (s.setPort p port).signalled = s.signalled := rfl
@[simp] theorem setPort_listener (port : Coport) : (s.setPort p port).listener = s.listener := rfl
@[simp] theorem setPort_aborted (port : Coport) : (s.setPort p port).aborted = s.aborted := rfl

@[simp] theorem unlockMutex_pc : s.unlockMutex.pc = s.pc := rfl
@[simp] theorem unlockMutex_port : s.unlockMutex.port = s.port := rfl
@[simp] theorem unlockMutex_mutex : s.unlockMutex.mutex = none := rfl
@[simp] theorem unlockMutex_queue : s.unlockMutex.queue = s.queue := rfl
@[simp] theorem unlockMutex_signalled : s.unlockMutex.signalled = s.signalled := rfl
@[simp] theorem unlockMutex_listener : s.unlockMutex.listener = s.listener := rfl

variable (n : Fin nCopollNotifiers)

@[simp] theorem signal_pc : (s.signal n).pc = s.pc := by unfold Sys.signal; split <;> rfl
@[simp] theorem signal_port : (s.signal n).port = s.port := by unfold Sys.signal; split <;> rfl
@[simp] theorem signal_mutex : (s.signal n).mutex = s.mutex := by unfold Sys.signal; split <;> rfl
@[simp] theorem signal_queue : (s.signal n).queue = s.queue := by unfold Sys.signal; split <;> rfl
@[simp] theorem signal_listener : (s.signal n).listener = s.listener := by
  unfold Sys.signal; split <;> rfl
@[simp] theorem signal_aborted : (s.signal n).aborted = s.aborted := by
  unfold Sys.signal; split <;> rfl

@[simp] theorem clearEntry_pc (i : Nat) : (s.clearEntry n i).pc = s.pc := rfl
@[simp] theorem clearEntry_port (i : Nat) : (s.clearEntry n i).port = s.port := rfl
@[simp] theorem clearEntry_mutex (i : Nat) : (s.clearEntry n i).mutex = s.mutex := rfl
@[simp] theorem clearEntry_signalled (i : Nat) : (s.clearEntry n i).signalled = s.signalled := rfl
@[simp] theorem clearEntry_listener (i : Nat) : (s.clearEntry n i).listener = s.listener := rfl

@[simp] theorem setStatus_pc (status : CoportStatus) : (s.setStatus p status).pc = s.pc := rfl
@[simp] theorem setStatus_mutex (status : CoportStatus) :
    (s.setStatus p status).mutex = s.mutex := rfl
@[simp] theorem setStatus_queue (status : CoportStatus) :
    (s.setStatus p status).queue = s.queue := rfl
@[simp] theorem setStatus_signalled (status : CoportStatus) :
    (s.setStatus p status).signalled = s.signalled := rfl
@[simp] theorem setStatus_listener (status : CoportStatus) :
    (s.setStatus p status).listener = s.listener := rfl
@[simp] theorem setStatus_port (status : CoportStatus) :
    (s.setStatus p status).port = Function.update s.port p ((s.port p).setStatus status) := rfl

end Sys

/-! ### Effects -/

/-- The reply of a request that finds the port closed. -/
def pipeError : Pc := .answered (.reply (.err .epipe))

/-- The reply of a request that is refused under the lock. -/
def tryAgain : After := .answer (.reply (.err .eagain))

/-- The steps in which thread `x` goes from `c` to `c'` and nothing else changes. -/
inductive Moves (s : Sys) : Party → Pc → Pc → Prop
  | call (t : Nat) (c : Pc) (r : Request) (hc : c = .idle ∨ ∃ a, c = .answered a) :
      Moves s (.client t) c (r.entry t)
  | sendClosed (x : Party) (p : Nat) (msg : Message) (msgLen : Nat) :
      Moves s x (.sendAcquire p msg msgLen) pipeError
  | recvClosed (x : Party) (p : Nat) (status : CoportStatus) (closing : Bool) :
      Moves s x (.recvAcquire p status closing) pipeError
  | recvClosing (x : Party) (p : Nat) (status : CoportStatus) (closing : Bool) :
      Moves s x (.recvAcquire p status closing) (.recvAcquire p .coportClosing true)
  | recvRetry (x : Party) (p : Nat) (status : CoportStatus) (closing : Bool) :
      Moves s x (.recvAcquire p status closing) (.recvAcquire p .coportOpen closing)
  | closeTested (x : Party) (p : Nat) : Moves s x (.closeTest p) (.closeAcquire p)
  | closeTwice (x : Party) (p : Nat) : Moves s x (.closeTest p) pipeError
  | closeClosed (x : Party) (p : Nat) : Moves s x (.closeAcquire p) pipeError
  | commit (x : Party) (p : Nat) (event : CoportEventmask) (a : Answer)
      (h : (s.port p).announces event) : Moves s x (.notifyTest p event a) (.notifyLock p a)
  | decline (x : Party) (p : Nat) (event : CoportEventmask) (a : Answer)
      (h : ¬(s.port p).announces event) : Moves s x (.notifyTest p event a) (.notifyOpen p a)
  | leaveStatus (x : Party) (p : Nat) (a : Answer) (h : (s.port p).status ≠ .coportDone) :
      Moves s x (.notifyOpen p a) (.answered a)
  | inspect (x : Party) (args : PollArgs) (i : Nat) (rs rs' : List CoportEventmask) :
      Moves s x (.inspect args i rs) (.inspect args (i + 1) rs')
  | inspected (x : Party) (args : PollArgs) (i : Nat) (rs : List CoportEventmask) :
      Moves s x (.inspect args i rs) (.answered (.polled rs))
  | registerNext (x : Party) (args : PollArgs) (i : Nat) (target : PollTarget)
      (h : args.coports[i]? = some target) :
      Moves s x (.register args i) (.registerAcquire args i target)
  | wakePoller (t : Nat) (args : PollArgs) : Moves s (.client t) (.asleep args) (.relock args)
  | unregisterSkip (x : Party) (args : PollArgs) (i : Nat)
      (h : (s.listener args.poller i).removed = true) :
      Moves s x (.unregister args i) (.unregister args (i + 1))
  | unregisterNext (x : Party) (args : PollArgs) (i : Nat) (target : PollTarget)
      (h : args.coports[i]? = some target) (hr : (s.listener args.poller i).removed = false) :
      Moves s x (.unregister args i) (.unregisterAcquire args i target)
  | pollFinished (x : Party) (args : PollArgs) (rs : List CoportEventmask) :
      Moves s x (.pollFinish args) (.answered (.polled rs))
  | deliverNext (n : Fin nCopollNotifiers) (i nEvents p : Nat) (hi : i < nEvents)
      (he : (s.queue n).eventQueue[i]?.join = some p) (hl : (s.port p).listeners ≠ []) :
      Moves s (.notifier n) (.deliver i nEvents) (.deliverAcquire i nEvents p .coportDone)
  | deliverRetry (x : Party) (i nEvents p : Nat) (status status' : CoportStatus)
      (h : status' = .coportDone ∨ status' = .coportOpen ∨ status' = .coportClosing) :
      Moves s x (.deliverAcquire i nEvents p status) (.deliverAcquire i nEvents p status')

/-- The compare-exchanges that take port `p`: from which status, and to which. -/
inductive Acquires (p : Nat) : CoportStatus → CoportStatus → Pc → Pc → Prop
  | send (msg : Message) (msgLen : Nat) :
      Acquires p .coportOpen .coportBusy (.sendAcquire p msg msgLen) (.sendLocked p msg msgLen)
  | recv (status : CoportStatus) (closing : Bool) :
      Acquires p status .coportBusy (.recvAcquire p status closing) (.recvLocked p status closing)
  | close : Acquires p .coportOpen .coportBusy (.closeAcquire p) (.closeLocked p)
  | register (args : PollArgs) (i : Nat) (target : PollTarget) (h : target.coport = p) :
      Acquires p .coportOpen .coportBusy (.registerAcquire args i target)
        (.registerLocked args i target)
  | unregister (args : PollArgs) (i : Nat) (target : PollTarget) (h : target.coport = p) :
      Acquires p .coportOpen .coportBusy (.unregisterAcquire args i target)
        (.unregisterLocked args i target)
  | deliver (i nEvents : Nat) (status : CoportStatus) :
      Acquires p status .coportPolling (.deliverAcquire i nEvents p status)
        (.deliverLocked i nEvents p status)

/-- The locked sections of the requests: what becomes of port `p`. -/
inductive Works (port : Coport) (p : Nat) : Pc → Pc → Coport → Prop
  | sendRefused (msg : Message) (msgLen : Nat) (h : port.sendRefused) :
      Works port p (.sendLocked p msg msgLen) (.release p .coportOpen tryAgain) port.refuseSend
  | sendAccepted (msg : Message) (msgLen : Nat) (h : ¬port.sendRefused) :
      Works port p (.sendLocked p msg msgLen)
        (.release p .coportDone (.notify copollIn (.reply (.sent msgLen)))) (port.enqueue msg)
  | recvRefused (status : CoportStatus) (closing : Bool) (h : port.recvRefused) :
      Works port p (.recvLocked p status closing) (.release p .coportOpen tryAgain) port.refuseRecv
  | recvTaken (status : CoportStatus) (closing : Bool) (h : ¬port.recvRefused) :
      Works port p (.recvLocked p status closing) (.release p status (.read port.start))
        (port.dequeue closing)
  | close : Works port p (.closeLocked p)
      (.release p .coportClosing (.answer (.reply .closed))) port.markClosed
  | register (args : PollArgs) (i : Nat) (target : PollTarget) (h : target.coport = p) :
      Works port p (.registerLocked args i target)
        (.release p .coportOpen (.register args (i + 1)))
        (port.addListener ⟨args.poller, i, target.events⟩)
  | unregister (args : PollArgs) (i : Nat) (target : PollTarget) (h : target.coport = p) :
      Works port p (.unregisterLocked args i target)
        (.release p .coportOpen (.unregister args (i + 1)))
        (port.removeListener ⟨args.poller, i, target.events⟩)

/-- The steps that take the copoll mutex. -/
inductive Locks (s : Sys) : Party → Pc → Pc → Prop
  | notify (x : Party) (p : Nat) (a : Answer) : Locks s x (.notifyLock p a) (.notifyPut p a)
  | poll (x : Party) (args : PollArgs) : Locks s x (.pollLock args) (.register args 0)
  | again (x : Party) (args : PollArgs) : Locks s x (.relock args) (.unregister args 0)
  | notifier (n : Fin nCopollNotifiers) :
      Locks s (.notifier n) .notifierRelock (.deliver 0 (s.queue n).nextEvent)

/-- The steps that let the copoll mutex go. -/
inductive Unlocks : Pc → Pc → Prop
  | notify (p : Nat) (a : Answer) : Unlocks (.notifyUnlock p a) (.answered a)
  | sleep (args : PollArgs) (i : Nat) (h : args.coports[i]? = none) :
      Unlocks (.register args i) (.asleep args)
  | finish (args : PollArgs) (i : Nat) (h : args.coports[i]? = none) :
      Unlocks (.unregister args i) (.pollFinish args)
  | nap (i nEvents : Nat) (h : nEvents ≤ i) : Unlocks (.deliver i nEvents) .napping

/-- What a step of thread `x` does to the state. -/
inductive Effect (s : Sys) (x : Party) : Sys → Prop
  | stay : Effect s x s
  | move (c : Pc) (h : Moves s x (s.pc x) c) : Effect s x (s.goto x c)
  | acquire (p : Nat) (found lock : CoportStatus) (c : Pc) (h : Acquires p found lock (s.pc x) c)
      (hst : (s.port p).status = found) : Effect s x ((s.setStatus p lock).goto x c)
  | work (p : Nat) (c : Pc) (port : Coport) (h : Works (s.port p) p (s.pc x) c port) :
      Effect s x ((s.setPort p port).goto x c)
  | release (p : Nat) (status : CoportStatus) (after : After)
      (h : s.pc x = .release p status after) :
      Effect s x ((s.setStatus p status).goto x (Sys.resume p after))
  | read (p index : Nat) (h : s.pc x = .recvRead p index) :
      Effect s x ((s.setPort p ((s.port p).markRecvd index)).goto x
        (.notifyTest p copollOut (.reply (.received ((s.port p).buf index).msg))))
  | openDone (p : Nat) (a : Answer) (h : s.pc x = .notifyOpen p a)
      (hst : (s.port p).status = .coportDone) :
      Effect s x ((s.setStatus p .coportOpen).goto x (.answered a))
  | lock (c : Pc) (h : Locks s x (s.pc x) c) (hm : s.mutex = none) :
      Effect s x ({ s with mutex := some x }.goto x c)
  | unlock (c : Pc) (h : Unlocks (s.pc x) c) : Effect s x (s.unlockMutex.goto x c)
  | freshListeners (args : PollArgs) (i : Nat) (rs : List CoportEventmask)
      (h : s.pc x = .inspect args i rs) (htimeout : args.timeout ≠ 0) :
      Effect s x ({ s with
        listener := Function.update s.listener args.poller fun _ => .fresh }.goto x
          (.pollLock args))
  | put (p : Nat) (a : Answer) (q : CopollNotifier) (h : s.pc x = .notifyPut p a)
      (hq : (s.queue (getCoportNotifierIndex p)).putCoportEvent p = some q) :
      Effect s x (({ s with queue := Function.update s.queue (getCoportNotifierIndex p) q }.signal
        (getCoportNotifierIndex p)).goto x (.notifyUnlock p a))
  | skip (n : Fin nCopollNotifiers) (i nEvents : Nat) (hx : x = .notifier n)
      (h : s.pc x = .deliver i nEvents) (hi : i < nEvents)
      (he : ∀ p, (s.queue n).eventQueue[i]?.join = some p → (s.port p).listeners = []) :
      Effect s x ((s.clearEntry n i).goto x (.deliver (i + 1) nEvents))
  | deliver (n : Fin nCopollNotifiers) (i nEvents p : Nat) (status : CoportStatus)
      (hx : x = .notifier n) (h : s.pc x = .deliverLocked i nEvents p status)
      (hm : Meets (s.port p).event (s.port p).levent) :
      Effect s x ({ (s.setPort p (s.port p).deliver).clearEntry n i with
        listener := Sys.deliverTo s.listener (s.port p) }.goto x
        (.release p ((s.port p).deliverStatus status) (.deliver (i + 1) nEvents)))
  | wakeNotifier (n : Fin nCopollNotifiers) (hx : x = .notifier n) (h : s.pc x = .napping) :
      Effect s x ({ s with
        signalled := Function.update s.signalled n false }.goto x .notifierRelock)
  | assertion (a : Assertion) (h : a = .coportEvent → ∃ n i nEvents p status,
      x = .notifier n ∧ s.pc x = .deliverLocked i nEvents p status ∧
        ¬Meets (s.port p).event (s.port p).levent) :
      Effect s x (s.abort a)

section Inversion
variable {s s' : Sys} {x : Party} {c c' : Pc}

theorem openAcquireStep_effect {p : Nat} (hpc : s.pc x = c)
    (hacq : Acquires p .coportOpen .coportBusy c c') (hmove : Moves s x c pipeError) :
    Effect s x (s.openAcquireStep x p c') := by
  unfold Sys.openAcquireStep
  split
  · exact .acquire p .coportOpen .coportBusy c' (hpc ▸ hacq) ‹_›
  · exact .move _ (hpc ▸ hmove)
  · exact .move _ (hpc ▸ hmove)
  · exact .stay

theorem pollAcquireStep_effect {p : Nat} (hpc : s.pc x = c)
    (hacq : Acquires p .coportOpen .coportBusy c c') : Effect s x (s.pollAcquireStep x p c') := by
  unfold Sys.pollAcquireStep
  split
  · exact .acquire p .coportOpen .coportBusy c' (hpc ▸ hacq) ‹_›
  · exact .stay

theorem sendWork_effect {p : Nat} {msg : Message} {msgLen : Nat}
    (hpc : s.pc x = .sendLocked p msg msgLen) : Effect s x (s.sendWork x p msg msgLen) := by
  simp only [Sys.sendWork]
  split
  · exact .work p _ _ (hpc ▸ .sendRefused msg msgLen ‹_›)
  · exact .work p _ _ (hpc ▸ .sendAccepted msg msgLen ‹_›)

theorem recvAcquireStep_effect {p : Nat} {status : CoportStatus} {closing : Bool}
    (hpc : s.pc x = .recvAcquire p status closing) :
    Effect s x (s.recvAcquireStep x p status closing) := by
  unfold Sys.recvAcquireStep
  split
  · exact .acquire p status .coportBusy _ (hpc ▸ .recv status closing) ‹_›
  · split
    · exact .move _ (hpc ▸ .recvClosed x p status closing)
    · exact .move _ (hpc ▸ .recvClosing x p status closing)
    · exact .move _ (hpc ▸ .recvRetry x p status closing)

theorem recvWork_effect {p : Nat} {status : CoportStatus} {closing : Bool}
    (hpc : s.pc x = .recvLocked p status closing) : Effect s x (s.recvWork x p status closing) := by
  simp only [Sys.recvWork]
  split
  · exact .work p _ _ (hpc ▸ .recvRefused status closing ‹_›)
  · exact .work p _ _ (hpc ▸ .recvTaken status closing ‹_›)

theorem lockMutex_effect (hlock : Locks s x (s.pc x) c) (h : s.lockMutex x c = some s') :
    Effect s x s' := by
  unfold Sys.lockMutex at h
  split at h
  · cases h
    exact .lock c hlock ‹_›
  · cases h

theorem putCoportEvent_effect {p : Nat} {a : Answer} (hpc : s.pc x = .notifyPut p a) :
    Effect s x (s.putCoportEvent x p (.notifyUnlock p a)) := by
  simp only [Sys.putCoportEvent]
  split
  · exact .assertion .eventIdx nofun
  · exact .put p a _ hpc ‹_›

theorem inspected_effect {args : PollArgs} {i : Nat} {rs : List CoportEventmask}
    (hpc : s.pc x = .inspect args i rs) : Effect s x (s.inspected x args rs) := by
  unfold Sys.inspected
  split
  next hwait => exact .freshListeners args i rs hpc hwait.1
  next => exact .move _ (hpc ▸ .inspected x args i rs)

theorem unregisterStep_effect {args : PollArgs} {i : Nat} {target : PollTarget}
    (hpc : s.pc x = .unregister args i) (ht : args.coports[i]? = some target) :
    Effect s x (s.unregisterStep x args i target) := by
  simp only [Sys.unregisterStep]
  split
  · split
    · exact .move _ (hpc ▸ .unregisterSkip x args i ‹_›)
    · exact .assertion .listenerRevent nofun
  · exact .move _ (hpc ▸ .unregisterNext x args i target ht (Bool.eq_false_of_not_eq_true ‹_›))

theorem pollFinishStep_effect {args : PollArgs} (hpc : s.pc x = .pollFinish args) :
    Effect s x (s.pollFinishStep x args) := by
  simp only [Sys.pollFinishStep]
  split
  · exact .move _ (hpc ▸ .pollFinished x args _)
  · exact .assertion .matchedEvents nofun

theorem deliverAcquireStep_effect {i nEvents p : Nat} {status : CoportStatus}
    (hpc : s.pc x = .deliverAcquire i nEvents p status) :
    Effect s x (s.deliverAcquireStep x i nEvents p status) := by
  unfold Sys.deliverAcquireStep
  split
  · exact .acquire p status .coportPolling _ (hpc ▸ .deliver i nEvents status) ‹_›
  · split
    · exact .move _ (hpc ▸ .deliverRetry x i nEvents p status _ (by simp))
    · exact .move _ (hpc ▸ .deliverRetry x i nEvents p status _ (by simp))
    · exact .move _ (hpc ▸ .deliverRetry x i nEvents p status _ (by simp))

theorem deliverWork_effect {n : Fin nCopollNotifiers} {i nEvents p : Nat} {status : CoportStatus}
    (hpc : s.pc (.notifier n) = .deliverLocked i nEvents p status) :
    Effect s (.notifier n) (s.deliverWork (.notifier n) n i nEvents p status) := by
  simp only [Sys.deliverWork]
  split
  · exact .deliver n i nEvents p status rfl hpc ‹_›
  · exact .assertion .coportEvent fun _ => ⟨n, i, nEvents, p, status, rfl, hpc, ‹_›⟩

/-- The loop of `copoll_deliver`, at an entry and at its end. -/
theorem deliver_effect {n : Fin nCopollNotifiers} {i nEvents : Nat}
    (hpc : s.pc (.notifier n) = .deliver i nEvents)
    (h : s.notifierStep n (.deliver i nEvents) = some s') : Effect s (.notifier n) s' := by
  simp only [Sys.notifierStep] at h
  split at h
  next hi =>
    split at h
    next p he =>
      cases h
      unfold Sys.deliverStep
      split
      next hl =>
        -- A coport that nobody listens on.
        refine .skip n i nEvents rfl hpc hi fun q hq => ?_
        rw [he] at hq
        cases hq
        exact hl
      next hl => exact .move _ (hpc ▸ .deliverNext n i nEvents p hi he hl)
    next he =>
      -- A NULL entry.
      cases h
      refine .skip n i nEvents rfl hpc hi fun q hq => ?_
      rw [he] at hq
      cases hq
  next hi =>
    cases h
    exact .unlock _ (hpc ▸ .nap i nEvents (by omega))

theorem notifierStep_effect {n : Fin nCopollNotifiers}
    (h : s.notifierStep n (s.pc (.notifier n)) = some s') : Effect s (.notifier n) s' := by
  cases hpc : s.pc (.notifier n) with
  | notifierRelock =>
    rw [hpc] at h
    exact lockMutex_effect (hpc ▸ .notifier n) h
  | deliver i nEvents => exact deliver_effect hpc (hpc ▸ h)
  | deliverAcquire i nEvents p status =>
    rw [hpc] at h
    cases h
    exact deliverAcquireStep_effect hpc
  | deliverLocked i nEvents p status =>
    rw [hpc] at h
    cases h
    exact deliverWork_effect hpc
  | release p status after =>
    rw [hpc] at h
    cases h
    exact .release p status after hpc
  | _ =>
    rw [hpc] at h
    cases h

theorem clientStep_effect {t : Nat} (h : s.clientStep t (s.pc (.client t)) = some s') :
    Effect s (.client t) s' := by
  -- In the order of the definition: the requests, `copoll_notify`, `wait_for_events`.
  cases hpc : s.pc (.client t) with
  | sendAcquire p msg msgLen =>
    rw [hpc] at h
    cases h
    exact openAcquireStep_effect hpc (.send msg msgLen) (.sendClosed _ p msg msgLen)
  | sendLocked p msg msgLen =>
    rw [hpc] at h
    cases h
    exact sendWork_effect hpc
  | recvAcquire p status closing =>
    rw [hpc] at h
    cases h
    exact recvAcquireStep_effect hpc
  | recvLocked p status closing =>
    rw [hpc] at h
    cases h
    exact recvWork_effect hpc
  | recvRead p index =>
    rw [hpc] at h
    cases h
    exact .read p index hpc
  | closeTest p =>
    simp only [hpc, Sys.clientStep] at h
    split at h
    · cases h
      exact .move _ (hpc ▸ .closeTwice _ p)
    · cases h
      exact .move _ (hpc ▸ .closeTwice _ p)
    · cases h
      exact .move _ (hpc ▸ .closeTested _ p)
  | closeAcquire p =>
    rw [hpc] at h
    cases h
    exact openAcquireStep_effect hpc .close (.closeClosed _ p)
  | closeLocked p =>
    rw [hpc] at h
    cases h
    exact .work p _ _ (hpc ▸ .close)
  | release p status after =>
    rw [hpc] at h
    cases h
    exact .release p status after hpc
  | notifyTest p event a =>
    simp only [hpc, Sys.clientStep] at h
    split at h
    · cases h
      exact .move _ (hpc ▸ .commit _ p event a ‹_›)
    · cases h
      exact .move _ (hpc ▸ .decline _ p event a ‹_›)
  | notifyLock p a =>
    rw [hpc] at h
    exact lockMutex_effect (hpc ▸ .notify _ p a) h
  | notifyPut p a =>
    rw [hpc] at h
    cases h
    exact putCoportEvent_effect hpc
  | notifyUnlock p a =>
    rw [hpc] at h
    cases h
    exact .unlock _ (hpc ▸ .notify p a)
  | notifyOpen p a =>
    simp only [hpc, Sys.clientStep] at h
    split at h
    · cases h
      exact .openDone p a hpc ‹_›
    · cases h
      exact .move _ (hpc ▸ .leaveStatus _ p a ‹_›)
  | inspect args i rs =>
    simp only [hpc, Sys.clientStep] at h
    split at h
    · cases h
      exact .move _ (hpc ▸ .inspect _ args i rs _)
    · cases h
      exact inspected_effect hpc
  | pollLock args =>
    rw [hpc] at h
    exact lockMutex_effect (hpc ▸ .poll _ args) h
  | register args i =>
    simp only [hpc, Sys.clientStep] at h
    split at h
    · cases h
      exact .move _ (hpc ▸ .registerNext _ args i _ ‹_›)
    · cases h
      exact .unlock _ (hpc ▸ .sleep args i ‹_›)
  | registerAcquire args i target =>
    rw [hpc] at h
    cases h
    exact pollAcquireStep_effect hpc (.register args i target rfl)
  | registerLocked args i target =>
    rw [hpc] at h
    cases h
    exact .work target.coport _ _ (hpc ▸ .register args i target rfl)
  | relock args =>
    rw [hpc] at h
    exact lockMutex_effect (hpc ▸ .again _ args) h
  | unregister args i =>
    simp only [hpc, Sys.clientStep] at h
    split at h
    · cases h
      exact unregisterStep_effect hpc ‹_›
    · cases h
      exact .unlock _ (hpc ▸ .finish args i ‹_›)
  | unregisterAcquire args i target =>
    rw [hpc] at h
    cases h
    exact pollAcquireStep_effect hpc (.unregister args i target rfl)
  | unregisterLocked args i target =>
    rw [hpc] at h
    cases h
    exact .work target.coport _ _ (hpc ▸ .unregister args i target rfl)
  | pollFinish args =>
    rw [hpc] at h
    cases h
    exact pollFinishStep_effect hpc
  | _ =>
    rw [hpc] at h
    cases h

theorem call_effect {t : Nat} {r : Request} (h : sysStep s (.call t r) = some s') :
    Effect s (.client t) s' := by
  unfold sysStep at h
  split at h
  · cases h
  · cases hpc : s.pc (.client t) with
    | idle =>
      simp only [hpc] at h
      cases h
      exact .move _ (.call t _ r (.inl hpc))
    | answered a =>
      simp only [hpc] at h
      cases h
      exact .move _ (.call t _ r (.inr ⟨a, hpc⟩))
    | _ =>
      simp only [hpc] at h
      cases h

theorem wakeStep_effect (h : s.wakeStep x = some s') : Effect s x s' := by
  unfold Sys.wakeStep at h
  split at h
  next t args hpc =>
    cases h
    exact .move _ (hpc ▸ .wakePoller t args)
  next n hpc =>
    cases h
    exact .wakeNotifier n rfl hpc
  next => cases h

/-- What a step does. -/
theorem sysStep_effect {a : Act} (h : sysStep s a = some s') : Effect s a.party s' := by
  cases a with
  | call t r => exact call_effect h
  | run x =>
    unfold sysStep at h
    split at h
    · cases h
    · cases x with
      | client t => exact clientStep_effect h
      | notifier n => exact notifierStep_effect h
  | wake x =>
    unfold sysStep at h
    split at h
    · cases h
    · exact wakeStep_effect h

/-- A step leaves the other threads where they are. -/
theorem effect_pc_of_ne (h : Effect s x s') {y : Party} (hy : y ≠ x) : s'.pc y = s.pc y := by
  cases h with
  | stay | assertion => rfl
  | put q a r h hq => simp [Function.update_of_ne hy]
  | _ => exact Function.update_of_ne hy _ _

/-- Nothing runs after a failed assertion. -/
theorem not_aborted_of_sysStep {a : Act} (h : sysStep s a = some s') : s.aborted = none := by
  unfold sysStep at h
  split at h
  · cases h
  next hnot => simpa using hnot

/-- A step fails an assertion or leaves `aborted` as it is. -/
theorem effect_aborted (h : Effect s x s') :
    s'.aborted = s.aborted ∨ ∃ a, s'.aborted = some a ∧ (a = .coportEvent →
      ∃ n i nEvents p status, x = .notifier n ∧ s.pc x = .deliverLocked i nEvents p status ∧
        ¬Meets (s.port p).event (s.port p).levent) := by
  cases h with
  | assertion a h => exact .inr ⟨a, rfl, h⟩
  | put q a r h hq => exact .inl (by simp)
  | _ => exact .inl rfl

/-- A thread that takes no part in a run stays where it is. -/
theorem pc_of_runFrom {acts : List Act} {y : Party} (h : runFrom sysStep s acts = some s')
    (hy : ∀ a ∈ acts, a.party ≠ y) : s'.pc y = s.pc y := by
  induction acts generalizing s with
  | nil =>
    cases h
    rfl
  | cons a acts ih =>
    obtain ⟨t, ht, hrest⟩ := Option.bind_eq_some_iff.mp h
    rw [ih hrest fun b hb => hy b (List.mem_cons_of_mem _ hb)]
    exact effect_pc_of_ne (sysStep_effect ht) (hy a List.mem_cons_self).symm

end Inversion

/-! ### The copoll mutex -/

/-- The thread is in a section that the copoll mutex protects. -/
def usesMutex : Pc → Bool
  | .notifyPut _ _ | .notifyUnlock _ _ => true
  | .register _ _ | .registerAcquire _ _ _ | .registerLocked _ _ _ => true
  | .unregister _ _ | .unregisterAcquire _ _ _ | .unregisterLocked _ _ _ => true
  | .deliver _ _ | .deliverAcquire _ _ _ _ | .deliverLocked _ _ _ _ => true
  | .release _ _ after =>
    match after with
    | .register _ _ | .unregister _ _ | .deliver _ _ => true
    | _ => false
  | _ => false

/-- The mutex is held by whoever is in such a section. -/
def MutexOk (s : Sys) : Prop := ∀ x, usesMutex (s.pc x) = true ↔ s.mutex = some x

section Mutex
variable {s s' : Sys} {x : Party} {c c' : Pc} {p : Nat}

theorem Moves.usesMutex_eq (h : Moves s x c c') : usesMutex c' = usesMutex c := by
  cases h with
  | call t c r hc =>
    have hentry : usesMutex (r.entry t) = false := by cases r <;> rfl
    obtain rfl | ⟨a, rfl⟩ := hc <;> exact hentry
  | _ => rfl

theorem Acquires.usesMutex_eq {found lock : CoportStatus} (h : Acquires p found lock c c') :
    usesMutex c' = usesMutex c := by
  cases h <;> rfl

theorem Works.usesMutex_eq {port port' : Coport} (h : Works port p c c' port') :
    usesMutex c' = usesMutex c := by
  cases h <;> rfl

theorem usesMutex_resume (status : CoportStatus) (after : After) :
    usesMutex (Sys.resume p after) = usesMutex (.release p status after) := by
  cases after <;> rfl

theorem Locks.usesMutex_eq (h : Locks s x c c') : usesMutex c = false ∧ usesMutex c' = true := by
  cases h <;> exact ⟨rfl, rfl⟩

theorem Unlocks.usesMutex_eq (h : Unlocks c c') : usesMutex c = true ∧ usesMutex c' = false := by
  cases h <;> exact ⟨rfl, rfl⟩

/-- A thread that neither enters nor leaves such a section. -/
theorem MutexOk.keep (hok : MutexOk s) (hpc : s'.pc = Function.update s.pc x c')
    (hm : s'.mutex = s.mutex) (hc : usesMutex c' = usesMutex (s.pc x)) : MutexOk s' := by
  intro y
  rw [hpc, hm]
  by_cases hy : y = x
  · subst hy
    rw [Function.update_self, hc]
    exact hok y
  · rw [Function.update_of_ne hy]
    exact hok y

theorem mutexOk_effect (hok : MutexOk s) (h : Effect s x s') : MutexOk s' := by
  cases h with
  | stay => exact hok
  | move c h => exact hok.keep rfl rfl h.usesMutex_eq
  | acquire p found lock c h hst => exact hok.keep rfl rfl h.usesMutex_eq
  | work p c port h => exact hok.keep rfl rfl h.usesMutex_eq
  | release p status after h => exact hok.keep rfl rfl (h ▸ usesMutex_resume status after)
  | read p index h => exact hok.keep rfl rfl (h ▸ rfl)
  | openDone p a h hst => exact hok.keep rfl rfl (h ▸ rfl)
  | lock c h hm =>
    -- Nobody was in a protected section, and `x` enters one.
    have hnone : ∀ y, usesMutex (s.pc y) = false := by
      intro y
      have := hok y
      simpa [hm] using this
    intro y
    by_cases hy : y = x
    · subst hy
      simp [h.usesMutex_eq.2]
    · simp [Function.update_of_ne hy, hnone y, Ne.symm hy]
  | unlock c h =>
    -- `x` was the holder, so nobody is left.
    have hx : s.mutex = some x := (hok x).mp h.usesMutex_eq.1
    intro y
    by_cases hy : y = x
    · subst hy
      simp [h.usesMutex_eq.2]
    · have hne : usesMutex (s.pc y) ≠ true := by
        intro hu
        have := (hok y).mp hu
        rw [hx] at this
        exact hy (Option.some.inj this).symm
      simpa [Function.update_of_ne hy] using hne
  | freshListeners args i rs h => exact hok.keep rfl rfl (h ▸ rfl)
  | put p a q h hq =>
    unfold Sys.signal
    split <;> exact hok.keep rfl rfl (h ▸ rfl)
  | skip n i nEvents hx h hi he => exact hok.keep rfl rfl (h ▸ rfl)
  | deliver n i nEvents p status hx h hm => exact hok.keep rfl rfl (h ▸ rfl)
  | wakeNotifier n hx h => exact hok.keep rfl rfl (h ▸ rfl)
  | assertion a h => exact hok

theorem mutexOk_init : MutexOk initSys := by
  intro x
  cases x <;> exact ⟨nofun, nofun⟩

/-- The copoll mutex protects what it should, in every state of every run. -/
theorem mutexOk_reach {ok : Sys → Act → Prop} (h : Reach sysStep ok initSys s) : MutexOk s :=
  h.invariant mutexOk_init fun _ _ _ _ hok _ hs => mutexOk_effect hok (sysStep_effect hs)

/-- Nobody is in a protected section while the mutex is free. -/
theorem MutexOk.not_uses (hok : MutexOk s) (hm : s.mutex = none) : usesMutex (s.pc x) = false := by
  by_contra huse
  have hheld := (hok x).mp (Bool.eq_true_of_not_eq_false huse)
  rw [hm] at hheld
  cases hheld

/-- No two threads are in a protected section. -/
theorem MutexOk.eq_of_uses (hok : MutexOk s) {y : Party} (hx : usesMutex (s.pc x) = true)
    (hy : usesMutex (s.pc y) = true) : x = y := by
  have h := (hok x).mp hx
  rw [(hok y).mp hy] at h
  exact (Option.some.inj h).symm

end Mutex

end Comsg.Proofs.Ipcd
