import Comsg.Lib.RobustMutex
import Comsg.Lib.Transition
import Mathlib.Logic.Function.Basic

/-!
# `Comsg.Libcocall.Endpoint`: how the worker threads of a daemon are started

`start_endpoint_thread` creates a thread and waits on a condition variable until it has registered
itself. A thread that cannot register exits with the mutex, which is a robust one.

* `StarterPc`: `start_endpoint_thread` (`endpoint.c:148-179`). `spawn_endpoints` calls it for one
  endpoint after the other (`endpoint.c:184-205`) and takes no notice of what it returns.
* `WorkerPc`: `coaccept_endpoint_init` in a new thread (`endpoint.c:72-95`).
* `Endpoints`: the two mutexes, who waits, and `scb_cap` of each endpoint, as a flag that is set
  when it is not `NULL`. `results` are the return values so far, so the endpoint that is being
  started is the one after them.

Nobody looks at what `pthread_mutex_lock` and `pthread_mutex_unlock` return. `pthread_cond_wait`
fails at once for a thread that does not own the mutex, and it may return without a signal. A
thread that exits gives its mutexes up first, and can be joined a while later.
-/

set_option autoImplicit false

namespace Comsg.Libcocall

open Comsg.Lib

/-- The thread that starts the others, and the others. -/
inductive ThreadId
  | starter
  | worker (i : Nat)
  deriving DecidableEq, Repr

inductive StarterPc
  | next
  | lockRegistration
  | create
  | createFailed
  | wait
  | waiting
  | relock
  | check (error : MutexError)
  | peekjoin
  | failedRegistration
  | failedCreation
  | unlockRegistration
  | unlockCreation
  | aborted
  deriving DecidableEq, Repr

/-- `accept` is `coaccept_wrapper`, which does not end. -/
inductive WorkerPc
  | absent
  | lock
  | register
  | signal
  | unlock
  | accept
  | signalFailed
  | exit
  | exiting
  | exited
  deriving DecidableEq, Repr

structure Endpoints where
  creation : RobustMutex ThreadId
  registration : RobustMutex ThreadId
  starter : StarterPc
  workers : Nat → WorkerPc
  scbCap : Nat → Bool
  results : List Bool

/-- `created` is the result of `pthread_create` in the step that calls it, and `registered` the one
of `coregister`. `wakeup` is a return from `pthread_cond_wait` without a signal. -/
inductive EndpointAct
  | starter (created : Bool)
  | wakeup
  | worker (i : Nat) (registered : Bool)
  deriving DecidableEq, Repr

namespace Endpoints

/-- The endpoint that is being started. -/
def current (s : Endpoints) : Nat := s.results.length

def goto (s : Endpoints) (pc : StarterPc) : Endpoints := { s with starter := pc }

/-- The end of `start_endpoint_thread`. -/
def finish (s : Endpoints) (result : Bool) : Endpoints :=
  { s with starter := .next, results := s.results ++ [result] }

def setWorker (s : Endpoints) (i : Nat) (pc : WorkerPc) : Endpoints :=
  { s with workers := Function.update s.workers i pc }

/-- `pthread_cond_signal`. -/
def signal (s : Endpoints) : Endpoints :=
  if s.starter = .waiting then s.goto .relock else s

/-- `start_endpoint_thread`, for `n` endpoints. -/
def starterStep (n : Nat) (s : Endpoints) (created : Bool) : Option Endpoints :=
  match s.starter with
  | .next =>
    if s.current < n then do
      let (m, _) ← s.creation.lock .starter
      some ({ s with creation := m }.goto .lockRegistration)
    else none
  | .lockRegistration => do
    let (m, _) ← s.registration.lock .starter
    some ({ s with registration := m }.goto .create)
  | .create =>
    if created then some ((s.setWorker s.current .lock).goto .wait)
    else some (s.goto .createFailed)
  | .createFailed =>
    some ({ s with registration := s.registration.unlock .starter }.finish false)
  | .wait =>
    if s.registration.owner = some .starter then
      some ({ s with registration := s.registration.unlock .starter }.goto .waiting)
    else some (s.goto (.check .eperm))
  | .waiting => none
  | .relock => do
    let (m, e) ← s.registration.lock .starter
    some ({ s with registration := m }.goto (.check e))
  | .check error =>
    if s.scbCap s.current = false ∨ error = .eownerdead then some (s.goto .peekjoin)
    else some (s.goto .unlockRegistration)
  | .peekjoin =>
    if s.workers s.current = .exited then some (s.goto .failedRegistration)
    else some (s.goto .aborted)
  | .failedRegistration =>
    some ({ s with registration := s.registration.unlock .starter }.goto .failedCreation)
  | .failedCreation =>
    some ({ s with creation := s.creation.unlock .starter }.finish false)
  | .unlockRegistration =>
    some ({ s with registration := s.registration.unlock .starter }.goto .unlockCreation)
  | .unlockCreation =>
    some ({ s with creation := s.creation.unlock .starter }.finish true)
  | .aborted => none

/-- `coaccept_endpoint_init`. -/
def workerStep (s : Endpoints) (i : Nat) (registered : Bool) : Option Endpoints :=
  match s.workers i with
  | .absent => none
  | .lock => do
    let (m, _) ← s.registration.lock (.worker i)
    some ({ s with registration := m }.setWorker i .register)
  | .register =>
    if registered then
      some ({ s with scbCap := Function.update s.scbCap i true }.setWorker i .signal)
    else some (s.setWorker i .signalFailed)
  | .signal => some (s.signal.setWorker i .unlock)
  | .unlock =>
    some ({ s with registration := s.registration.unlock (.worker i) }.setWorker i .accept)
  | .accept => none
  | .signalFailed => some (s.signal.setWorker i .exit)
  | .exit =>
    some ({ s with registration := s.registration.ownerDied (.worker i) }.setWorker i .exiting)
  | .exiting => some (s.setWorker i .exited)
  | .exited => none

/-- One step. Nothing goes on after an `abort`. -/
def step (n : Nat) (s : Endpoints) (act : EndpointAct) : Option Endpoints :=
  if s.starter = .aborted then none
  else match act with
    | .starter created => s.starterStep n created
    | .wakeup => if s.starter = .waiting then some (s.goto .relock) else none
    | .worker i registered => s.workerStep i registered

end Endpoints

/-- `init_worker_mutexes`. -/
def initEndpoints : Endpoints where
  creation := .free
  registration := .free
  starter := .next
  workers _ := .absent
  scbCap _ := false
  results := []

end Comsg.Libcocall
