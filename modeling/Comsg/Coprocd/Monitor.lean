import Comsg.Coprocd.Module

/-!
# `Comsg.Coprocd.Monitor`: the launch of the microkernel, and the deaths of daemons

* `initDaemon`: `daemon.c:70-88`. `killAndReapDaemon`, `restartDaemon`: `daemon.c:90-152`.
* `initModule`, `restartModule`: `module.c:47-98` and `module.c:172-182`.
* `initCore`, `initMicrokernel`: `launch.c:86-194`.
* `daemonDied`, `haltAndCatchFire`: `monitor.c:50-114`.
* `findDaemon`: `modules.h:61-76`. `module_from_daemon` is the module of the pointer, since a
  module has 1024 bytes.
* `runloop`: one turn of `runloop` with the marks for a restart (`runloop.c:46-103`).

What the processes do comes from outside: whether a daemon starts and with which pid, with which
status the wait for a synchronous daemon ends, and what the system calls return. The threads that
serve the setup calls of the daemons store their status (`store`). The functions of a module are
called for their effect on other state; those of the core leave the table alone.
-/

set_option autoImplicit false

namespace Comsg.Coprocd

/-- What happens when daemons are started. -/
structure Launch where
  /-- The pid of the new process, if `spawn_daemon_proc` does not fail. -/
  spawn : DaemonRef → Option Nat
  /-- The status that ends the wait for a synchronous daemon. -/
  ready : DaemonRef → Status

/-- `errno` of `kill` in `kill_and_reap_daemon`. -/
inductive KillResult
  | ok
  | einval
  | eperm
  | esrch
  deriving DecidableEq, Repr

/-- What happens in a restart. `error` says whether the variable of that name, which
`restart_daemon` does not set, holds something else than 0. -/
structure Restart where
  launch : Launch
  wait : DaemonRef → WaitResult
  killed : KillResult
  error : Bool

namespace Manager

/-! ### Launch -/

/-- `init_daemon`: coprocd after it, and whether it returns 0. -/
def initDaemon (s : Manager) (ref : DaemonRef) (o : Launch) : Manager × Bool :=
  let s := s.setStatus ref .starting
  match o.spawn ref with
  | none     => (s, false)
  | some pid => (s.setPid ref pid, true)

/-- The flags of daemon `i` pass the tests of `init_module`, which exits otherwise. `expect` says
that the module has a leader. -/
def flagsOk (flags i : Nat) (expect : Bool) : Bool :=
  if HasFlag flags leader then decide (i = 0 ∧ HasFlag flags setpgrp)
  else if HasFlag flags setpgrp ∧ expect = false then false
  else if ¬HasFlag flags setpgrp ∧ expect = true then false
  else true

/-- The loop of `init_module` over the daemons `is`. It does not return when coprocd exits or
waits for ever, and the result says whether all daemons were started. -/
def initDaemons (k : Nat) (o : Launch) : List Nat → Bool → Manager → Option (Manager × Bool)
  | [], _, s => some (s, true)
  | i :: is, expect, s =>
    match s.daemon? ⟨k, i⟩ with
    | none => none
    | some d =>
      let expect := expect || decide (HasFlag d.flags leader)
      if flagsOk d.flags i expect = false then none
      else if ¬HasFlag d.flags leader ∧ HasFlag d.flags onDemand then initDaemons k o is expect s
      else
        match s.initDaemon ⟨k, i⟩ o with
        | (s, false) => some (s, false)
        | (s, true) =>
          if HasFlag d.flags synchronous then
            let s := s.setStatus ⟨k, i⟩ (o.ready ⟨k, i⟩)
            match o.ready ⟨k, i⟩ with
            | .continuing | .running => initDaemons k o is expect s
            -- A daemon that stays in `STARTING` is waited for without end.
            | .starting              => none
            | _                      => some (s, false)
          else initDaemons k o is expect s

/-- `init_module`. -/
def initModule (s : Manager) (k : Nat) (o : Launch) : Option (Manager × Bool) :=
  s.modules[k]?.bind fun m => initDaemons k o (List.range m.ndaemons) false s

/-- The loop of `init_core`, which exits when a daemon is not started. -/
def initCoreDaemons (o : Launch) : List Nat → Manager → Option Manager
  | [], s => some s
  | i :: is, s =>
    match s.daemon? ⟨0, i⟩, s.initDaemon ⟨0, i⟩ o with
    | some d, (s, true) =>
      if HasFlag d.flags synchronous then
        match o.ready ⟨0, i⟩ with
        | .continuing | .running => initCoreDaemons o is (s.setStatus ⟨0, i⟩ (o.ready ⟨0, i⟩))
        | _                      => none
      else initCoreDaemons o is s
    | _, _ => none

/-- `init_core`. -/
def initCore (s : Manager) (progname : String) (o : Launch) : Option Manager := do
  let m : UkernelModule ← s.modules[0]?
  let d : UkernelDaemon ← s.daemon? ⟨0, 0⟩
  if m.type ≠ .core ∨ m.moduleName ≠ "core" ∨ d.name ≠ progname then none
  else
    let s := (s.setPid ⟨0, 0⟩ s.mypid).setStatus ⟨0, 0⟩ .running
    if m.init.start = false ∨ m.init.complete = false then none
    else initCoreDaemons o (List.range' 1 (m.ndaemons - 1)) s

/-- The loop of `init_microkernel`. A module of type `CORE` that is not started ends coprocd. -/
def initModules (o : Launch) : List Nat → Manager → Option Manager
  | [], s => some s
  | k :: ks, s =>
    match s.modules[k]?, s.initModule k o with
    | some m, some (s, started) =>
      if started = false ∧ m.type = .core then none else initModules o ks s
    | _, _ => none

/-- `init_microkernel`: coprocd after it, if it returns. -/
def initMicrokernel (s : Manager) (progname : String) (o : Launch) : Option Manager :=
  ({ s with handler := .daemonDied }.initCore progname o).bind fun s =>
    initModules o (List.range' 1 (s.modules.length - 1)) s

/-! ### Deaths -/

/-- `find_daemon`. -/
def findDaemon (s : Manager) (pid : Nat) : Option DaemonRef :=
  (List.range s.modules.length).findSome? fun k =>
    (List.range ((s.modules[k]?.map UkernelModule.ndaemons).getD 0)).findSome? fun i =>
      if (s.daemon? ⟨k, i⟩).map UkernelDaemon.pid = some pid then some ⟨k, i⟩ else none

/-- A turn of a loop over `kill_module`. -/
def killNext (reason : Option DaemonRef) (s : Manager) (k : Nat) : Manager :=
  if s.fate ≠ .running then s else (s.killModule k reason).1

/-- `halt_and_catch_fire`. -/
def haltAndCatchFire (s : Manager) (cause : DaemonRef) : Manager :=
  let s := { s with handler := .justReap }
  (List.range' 1 (s.modules.length - 1) ++ [0]).foldl (killNext (some cause)) s

/-- `mark_daemon_for_restart` and `mark_module_for_restart`. -/
def markForRestart (s : Manager) (module : Option Nat) (ref : DaemonRef) : Manager :=
  if s.daemonRestart ≠ none ∨ s.moduleRestart ≠ none then { s with fate := .exited }
  else { s with moduleRestart := module, daemonRestart := some ref }

/-- `daemon_died` for the child `pid`. -/
def daemonDied (s : Manager) (pid : Nat) : WaitResult → Manager
  | .none            => s
  | .einval | .failed => { s with fate := .exited }
  | .reaped =>
    match s.findDaemon pid with
    | none => { s with fate := .faulted }
    | some ref =>
      match s.modules[ref.module]?, s.daemon? ref with
      | some m, some d =>
        let s := s.setStatus ref .died
        -- The type of the module is looked at before the action of the daemon.
        if m.type = .core ∧ d.failAct = .hcf then s.haltAndCatchFire ref
        else
          match d.failAct with
          | .kill         => (s.killModule ref.module (some ref)).1
          | .dirtyRestart => s.markForRestart none ref
          | .cleanRestart => s.markForRestart (some ref.module) ref
          | .continue     => s.setPid ref 0
          -- Here it is the action of a daemon that is not in a core module.
          | .hcf          => { s with fate := .exited }
      | _, _ => { s with fate := .faulted }

/-! ### Restarts -/

/-- `kill_and_reap_daemon`. -/
def killAndReapDaemon (s : Manager) (ref : DaemonRef) (pid : Nat) (o : Restart) : Manager :=
  let s := s.kill ref pid
  if s.fate ≠ .running then s
  else
    match o.killed with
    | .einval | .eperm => { s with fate := .exited }
    | .esrch           => s
    | .ok =>
      match o.wait ref with
      | .reaped => (s.setPid ref 0).setStatus ref .killed
      | _       => { s with fate := .exited }

/-- `restart_daemon`. -/
def restartDaemon (s : Manager) (ref : DaemonRef) (o : Restart) : Manager :=
  match s.daemon? ref with
  | none => { s with fate := .faulted }
  | some d =>
    if d.failAct ≠ .dirtyRestart then { s with fate := .exited }
    else
      let s := if d.pid ≠ 0 then s.killAndReapDaemon ref d.pid o else s
      if s.fate ≠ .running then s
      -- `error` is tested, and nothing has set it.
      else if o.error = true then s
      else
        let s := s.setStatus ref .starting
        match o.launch.spawn ref with
        | none     => s
        | some pid => s.setPid ref pid

/-- `restart_module`. -/
def restartModule (s : Manager) (k : Nat) (ref : DaemonRef) (o : Restart) : Manager :=
  match s.modules[k]?.bind UkernelModule.fini, s.daemon? ref with
  | some fini, some d =>
    if fini.start = false ∨ d.failAct ≠ .cleanRestart then { s with fate := .exited }
    else
      let s := s.killAndReapModule k (some ref) o.wait
      if s.fate ≠ .running then s
      else
        match s.initModule k o.launch with
        | none        => { s with fate := .exited }
        | some (s, _) => if fini.complete = true then s else { s with fate := .faulted }
  | _, _ => { s with fate := .faulted }

/-- One turn of `runloop`. -/
def runloop (s : Manager) (o : Restart) : Manager :=
  match s.moduleRestart, s.daemonRestart with
  | some k, some ref =>
    { s.restartModule k ref o with moduleRestart := none, daemonRestart := none }
  | some _, none => { s with fate := .exited }
  | none, some ref => { s.restartDaemon ref o with daemonRestart := none }
  | none, none => s

end Manager

/-- What can happen after the launch: a daemon reports its status, a child has died, and the main
thread takes a turn. -/
inductive ManagerAct
  | store (ref : DaemonRef) (status : Status)
  | sigchld (pid : Nat) (wait : WaitResult)
  | runloop (o : Restart)

namespace Manager

/-- One step while coprocd runs. -/
def step (s : Manager) (act : ManagerAct) : Option Manager :=
  if s.fate ≠ .running then none
  else
    match act with
    | .store ref status => some (s.setStatus ref status)
    | .sigchld pid wait =>
      match s.handler with
      | .daemonDied => some (s.daemonDied pid wait)
      | .justReap   => some s
    | .runloop o => some (s.runloop o)

/-- coprocd with pid `mypid` when it begins. -/
def boot (mypid : Nat) (modules : List UkernelModule) : Manager where
  mypid := mypid
  modules := modules
  handler := .daemonDied
  daemonRestart := none
  moduleRestart := none
  log := []
  fate := .running

end Manager

/-- The table as the macros `MODULE` and `DAEMON` make it. -/
structure Declared (m : UkernelModule) : Prop where
  status : m.status = .pending
  daemons : ∀ d ∈ m.daemons, d.pid = 0 ∧ d.status = .pending

end Comsg.Coprocd
