import Comsg.Coprocd.Module

/-!
# `Comsg.Coprocd.Core`: the start-up handshake of the core daemons

nsd brings the root namespace and the SCBs of `coinsert` and `coselect`, coserviced brings that of
`codiscover`, and each of them gets what the other one has brought. `core.c:67-230` runs the calls
in threads of coprocd. Here every thread goes from one access of shared data to the next one.

* `Core`, `initCoreState`: the variables of `core.c:67-99`.
* `nsdStep`, `coservicedStep`: `nsd_setup` and `coserviced_setup` (`core.c:122-174`), which are
  called once each.
* `nsdCompleteStep`, `coeventdCompleteStep`, `ipcdCompleteStep`, `userInitStep`: the other calls
  (`core.c:176-230`). nsd calls `nsd_setup_complete` after `nsd_setup` has returned, and coeventd
  and ipcd are started later still.

A thread that has called `pthread_cond_wait` may return whenever the mutex is free, also when
nobody has signalled its condition variable, as POSIX permits.
-/

set_option autoImplicit false

namespace Comsg.Coprocd

/-- Whether a thread waits on a condition variable, and whether it was signalled. -/
inductive Cond
  | idle
  | waiting
  | signalled
  deriving DecidableEq, Repr

/-- `pthread_cond_signal`. -/
def Cond.signal : Cond → Cond
  | .waiting => .signalled
  | c        => c

/-- The variables of `core.c`. `none` is `NULL`, and `locked` says that `ukernel_init_lock` is
held. -/
structure Core (α : Type) where
  codiscoverScb : Option α
  rootNamespace : Option α
  coinsertScb : Option α
  coselectScb : Option α
  coprocInited : Bool
  ukernInited : Bool
  nsd : Status
  coserviced : Status
  coeventd : Status
  ipcd : Status
  locked : Bool
  nsdWakeup : Cond
  coservicedWakeup : Cond
  deriving DecidableEq

/-- After `core_init_start`. -/
def initCoreState (α : Type) : Core α where
  codiscoverScb := none
  rootNamespace := none
  coinsertScb := none
  coselectScb := none
  coprocInited := false
  ukernInited := false
  nsd := .pending
  coserviced := .pending
  coeventd := .pending
  ipcd := .pending
  locked := false
  nsdWakeup := .idle
  coservicedWakeup := .idle

/-- What nsd and coserviced bring. -/
structure Brought (α : Type) where
  ns : α
  coinsert : α
  coselect : α
  codiscover : α
  deriving DecidableEq

/-- Where the thread of `nsd_setup` is. -/
inductive NsdPc (α : Type)
  | entry
  | clear
  | putCoinsert
  | putCoselect
  | putRoot
  | putStatus
  | signal
  | asleep
  | load
  | unlock (codiscover : Option α)
  | replied (codiscover : Option α)
  deriving DecidableEq

/-- Where the thread of `coserviced_setup` is, with what it has loaded. -/
inductive CoservicedPc (α : Type)
  | entry
  | load
  | asleep
  | reload
  | getCoinsert (ns : Option α)
  | getCoselect (ns coinsert : Option α)
  | putCodiscover (ns coinsert coselect : Option α)
  | signal (ns coinsert coselect : Option α)
  | unlock (ns coinsert coselect : Option α)
  | replied (ns coinsert coselect : Option α)
  deriving DecidableEq

/-- The other calls. -/
inductive CoreCall
  | nsdSetupComplete
  | coeventdSetupComplete
  | ipcdSetupComplete
  | coprocUserInit
  deriving DecidableEq, Repr

/-- Where the thread of another call is. `again` is the reply `EAGAIN`, and `done` and `user` are
the replies 0. -/
inductive CallPc (α : Type)
  | entry
  | setInited
  | setRunning
  | setAllRunning
  | getRoot
  | getCodiscover (ns : Option α)
  | getCoinsert (ns codiscover : Option α)
  | getCoselect (ns codiscover coinsert : Option α)
  | again
  | done
  | user (ns codiscover coinsert coselect : Option α)
  deriving DecidableEq

namespace Core

variable {α : Type}

/-- `nsd_setup`. -/
def nsdStep (s : Core α) (b : Brought α) : NsdPc α → Option (Core α × NsdPc α)
  | .entry       => if s.locked then none else some ({ s with locked := true }, .clear)
  | .clear       => some ({ s with codiscoverScb := none }, .putCoinsert)
  | .putCoinsert => some ({ s with coinsertScb := some b.coinsert }, .putCoselect)
  | .putCoselect => some ({ s with coselectScb := some b.coselect }, .putRoot)
  | .putRoot     => some ({ s with rootNamespace := some b.ns }, .putStatus)
  | .putStatus   => some ({ s with nsd := .continuing }, .signal)
  -- The wait begins and the mutex is let go of in one step.
  | .signal => some ({ s with
      coservicedWakeup := s.coservicedWakeup.signal
      nsdWakeup := .waiting
      locked := false }, .asleep)
  | .asleep =>
    if s.locked then none else some ({ s with nsdWakeup := .idle, locked := true }, .load)
  | .load              => some (s, .unlock s.codiscoverScb)
  | .unlock codiscover => some ({ s with locked := false }, .replied codiscover)
  | .replied _         => none

/-- `coserviced_setup`. -/
def coservicedStep (s : Core α) (b : Brought α) :
    CoservicedPc α → Option (Core α × CoservicedPc α)
  | .entry => if s.locked then none else some ({ s with locked := true }, .load)
  | .load =>
    match s.rootNamespace with
    | none    => some ({ s with coservicedWakeup := .waiting, locked := false }, .asleep)
    | some ns => some (s, .getCoinsert (some ns))
  | .asleep =>
    if s.locked then none
    else some ({ s with coservicedWakeup := .idle, locked := true }, .reload)
  -- What is loaded now is not tested again.
  | .reload => some (s, .getCoinsert s.rootNamespace)
  | .getCoinsert ns => some (s, .getCoselect ns s.coinsertScb)
  | .getCoselect ns coinsert => some (s, .putCodiscover ns coinsert s.coselectScb)
  | .putCodiscover ns coinsert coselect =>
    some ({ s with codiscoverScb := some b.codiscover }, .signal ns coinsert coselect)
  | .signal ns coinsert coselect =>
    some ({ s with nsdWakeup := s.nsdWakeup.signal }, .unlock ns coinsert coselect)
  | .unlock ns coinsert coselect =>
    some ({ s with locked := false }, .replied ns coinsert coselect)
  | .replied _ _ _ => none

/-- `nsd_setup_complete`. -/
def nsdCompleteStep (s : Core α) : CallPc α → Option (Core α × CallPc α)
  | .entry         => some (s, if s.coprocInited then .again else .setInited)
  | .setInited     => some ({ s with coprocInited := true }, .setRunning)
  | .setRunning    => some ({ s with nsd := .running }, .setAllRunning)
  | .setAllRunning => some ({ s with coserviced := .running }, .done)
  | _              => none

/-- `coeventd_setup_complete`. -/
def coeventdCompleteStep (s : Core α) : CallPc α → Option (Core α × CallPc α)
  | .entry      => some (s, if s.coeventd = .running then .again else .setRunning)
  | .setRunning => some ({ s with coeventd := .running }, .done)
  | _           => none

/-- `ipcd_setup_complete`. -/
def ipcdCompleteStep (s : Core α) : CallPc α → Option (Core α × CallPc α)
  | .entry      => some (s, if s.ukernInited then .again else .setInited)
  | .setInited  => some ({ s with ukernInited := true }, .setRunning)
  | .setRunning => some ({ s with ipcd := .running }, .done)
  | _           => none

/-- `coproc_user_init`. -/
def userInitStep (s : Core α) : CallPc α → Option (Core α × CallPc α)
  | .entry => some (s, if s.ukernInited then .getRoot else .again)
  | .getRoot => some (s, .getCodiscover s.rootNamespace)
  | .getCodiscover ns => some (s, .getCoinsert ns s.codiscoverScb)
  | .getCoinsert ns codiscover => some (s, .getCoselect ns codiscover s.coinsertScb)
  | .getCoselect ns codiscover coinsert => some (s, .user ns codiscover coinsert s.coselectScb)
  | _ => none

/-- One step of another call. -/
def callStep (s : Core α) : CoreCall → CallPc α → Option (Core α × CallPc α)
  | .nsdSetupComplete      => s.nsdCompleteStep
  | .coeventdSetupComplete => s.coeventdCompleteStep
  | .ipcdSetupComplete     => s.ipcdCompleteStep
  | .coprocUserInit        => s.userInitStep

end Core

/-- The threads of the handshake. -/
structure Handshake (α : Type) where
  core : Core α
  nsd : NsdPc α
  coserviced : CoservicedPc α
  calls : List (CoreCall × CallPc α)
  deriving DecidableEq

/-- A step of one of the threads, or another call. -/
inductive HandshakeAct
  | nsd
  | coserviced
  | call (c : CoreCall)
  | advance (r : Nat)
  deriving DecidableEq, Repr

namespace Handshake

variable {α : Type}

/-- `nsd_setup` has returned. -/
def nsdReturned (s : Handshake α) : Bool :=
  match s.nsd with
  | .replied _ => true
  | _          => false

/-- The call may be made now. -/
def mayCall (s : Handshake α) : CoreCall → Bool
  | .coprocUserInit => true
  | _               => s.nsdReturned

/-- One step. -/
def step (b : Brought α) (s : Handshake α) : HandshakeAct → Option (Handshake α)
  | .nsd => (s.core.nsdStep b s.nsd).map fun (core, pc) => { s with core, nsd := pc }
  | .coserviced =>
    (s.core.coservicedStep b s.coserviced).map fun (core, pc) => { s with core, coserviced := pc }
  | .call c => if s.mayCall c then some { s with calls := s.calls ++ [(c, .entry)] } else none
  | .advance r => do
    let (c, pc) ← s.calls[r]?
    let (core, pc) ← s.core.callStep c pc
    some { s with core, calls := s.calls.set r (c, pc) }

end Handshake

/-- The handshake before any of the calls has got anywhere. -/
def initHandshake (α : Type) : Handshake α where
  core := initCoreState α
  nsd := .entry
  coserviced := .entry
  calls := []

end Comsg.Coprocd
