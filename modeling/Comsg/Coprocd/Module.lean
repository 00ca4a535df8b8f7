import Mathlib.Data.List.Basic

/-!
# `Comsg.Coprocd.Module`: the module table, and how modules are killed

coprocd starts the daemons of the microkernel and watches over them. Its table has the modules,
and each module has its daemons. A pointer to a daemon is the pair of its indices.

* `UkernelDaemon`, `UkernelModule` and their types: `daemon.h:58-157`. The constants of
  `daemon_flags` number the flags, and the code uses them as masks.
* `kill`: `kill(2)` with `SIGKILL`. The pid 0 stands for the process group of coprocd.
* `killModule`, `reaped`, `killAndReapModule`: `module.c:100-170`.

`log` has the calls of `kill`, each with the daemon whose pid it was.
-/

set_option autoImplicit false

namespace Comsg.Coprocd

/-- `MAX_MODULE_DAEMONS`. -/
def maxModuleDaemons : Nat := 12

/-- `daemon_status` and `module_status`. -/
inductive Status
  | pending
  | starting
  | continuing
  | running
  | killed
  | died
  deriving DecidableEq, Repr

/-- `daemon_failure_mode`. -/
inductive FailureMode
  | hcf
  | kill
  | dirtyRestart
  | cleanRestart
  | continue
  deriving DecidableEq, Repr

/-- `module_type`. -/
inductive ModuleType
  | core
  | peripheral
  deriving DecidableEq, Repr

/-- `daemon_flags`, as masks. -/
def setpgrp : Nat := 0
def leader : Nat := 1
def setuid : Nat := 2
def onDemand : Nat := 3
def synchronous : Nat := 4

/-- A flag is set. -/
def HasFlag (flags mask : Nat) : Prop := flags &&& mask ≠ 0

instance (flags mask : Nat) : Decidable (HasFlag flags mask) := inferInstanceAs (Decidable (_ ≠ _))

/-- `struct ukernel_daemon`. The pid is 0 while the daemon is not started. -/
structure UkernelDaemon where
  name : String
  pid : Nat
  failAct : FailureMode
  flags : Nat
  status : Status
  deriving DecidableEq, Repr

/-- `module_setup_info` and `module_teardown_info`: which of the functions are there. -/
structure ModuleFuncs where
  start : Bool
  complete : Bool
  deriving DecidableEq, Repr

/-- `struct ukernel_module`. -/
structure UkernelModule where
  moduleName : String
  type : ModuleType
  ndaemons : Nat
  status : Status
  flags : Nat
  init : ModuleFuncs
  fini : Option ModuleFuncs
  daemons : List UkernelDaemon
  length_eq : daemons.length = maxModuleDaemons
  ndaemons_le : ndaemons ≤ maxModuleDaemons
  deriving DecidableEq

/-- A pointer to a daemon. -/
structure DaemonRef where
  module : Nat
  daemon : Nat
  deriving DecidableEq, Repr

/-- A call of `kill`. -/
structure Kill where
  daemon : DaemonRef
  pid : Nat
  deriving DecidableEq, Repr

/-- coprocd runs, was killed by its own signal, faulted, or has exited. -/
inductive Fate
  | running
  | killed
  | faulted
  | exited
  deriving DecidableEq, Repr

/-- The handler of `SIGCHLD`. -/
inductive Handler
  | daemonDied
  | justReap
  deriving DecidableEq, Repr

/-- The state of coprocd. -/
structure Manager where
  mypid : Nat
  modules : List UkernelModule
  handler : Handler
  daemonRestart : Option DaemonRef
  moduleRestart : Option Nat
  log : List Kill
  fate : Fate

/-- A daemon of the module is changed. -/
def UkernelModule.modifyDaemon (m : UkernelModule) (i : Nat) (f : UkernelDaemon → UkernelDaemon) :
    UkernelModule :=
  { m with
    daemons := m.daemons.modify i f
    length_eq := (List.length_modify ..).trans m.length_eq }

namespace Manager

/-- The daemon under a pointer. -/
def daemon? (s : Manager) (ref : DaemonRef) : Option UkernelDaemon :=
  s.modules[ref.module]?.bind fun m => m.daemons[ref.daemon]?

/-- A daemon is changed. -/
def modifyDaemon (s : Manager) (ref : DaemonRef) (f : UkernelDaemon → UkernelDaemon) : Manager :=
  { s with modules := s.modules.modify ref.module fun m => m.modifyDaemon ref.daemon f }

def setStatus (s : Manager) (ref : DaemonRef) (status : Status) : Manager :=
  s.modifyDaemon ref fun d => { d with status := status }

def setPid (s : Manager) (ref : DaemonRef) (pid : Nat) : Manager :=
  s.modifyDaemon ref fun d => { d with pid := pid }

/-- `kill(pid, SIGKILL)`, and also `kill(-pid, SIGKILL)`: coprocd leads its own process group. -/
def kill (s : Manager) (ref : DaemonRef) (pid : Nat) : Manager :=
  { s with
    log := s.log ++ [⟨ref, pid⟩]
    fate := if pid = 0 ∨ pid = s.mypid then .killed else s.fate }

/-- `if (d != reason)` and its body, for the daemon at `ref`. -/
def killUnless (reason : Option DaemonRef) (s : Manager) (ref : DaemonRef) : Manager :=
  if s.fate ≠ .running then s
  else if some ref = reason then s
  else
    match s.daemon? ref with
    | none   => { s with fate := .faulted }
    | some d => (s.setStatus ref .killed).kill ref d.pid

/-- `kill_module`: coprocd after it, and the number that it returns while coprocd runs. -/
def killModule (s : Manager) (k : Nat) (reason : Option DaemonRef) : Manager × Nat :=
  match s.modules[k]? with
  | none => ({ s with fate := .faulted }, 0)
  | some m =>
    if HasFlag m.flags onDemand ∧ m.status ≠ .starting ∧ m.status ≠ .running then (s, 0)
    else if ¬HasFlag m.flags onDemand ∧ m.status ≠ .running then (s, 0)
    else
      match s.daemon? ⟨k, 0⟩ with
      | none => ({ s with fate := .faulted }, 0)
      | some d =>
        if HasFlag d.flags (leader ||| setpgrp) then
          let s := s.kill ⟨k, 0⟩ d.pid
          if s.fate ≠ .running then (s, 0)
          else
            ((List.range m.ndaemons).foldl (fun s i => s.setStatus ⟨k, i⟩ .killed) s,
              m.ndaemons - 1)
        else
          let s := killUnless reason s ⟨k, 0⟩
          -- The loop takes daemon `i` of module `i`.
          let s := ((List.range' 1 (m.ndaemons - 1)).map fun i => ⟨i, i⟩).foldl
            (killUnless reason) s
          (s, m.ndaemons)

/-- The daemons that the loop of `kill_and_reap_module` waits for when `nkilled` was returned. -/
def reaped (k ndaemons nkilled : Nat) : List DaemonRef :=
  if nkilled = ndaemons then (List.range ndaemons).map fun i => ⟨k, i⟩
  else if nkilled = ndaemons - 1 then (List.range' 1 (ndaemons - 1)).map fun i => ⟨k, i⟩
  else []

end Manager

/-- What `waitpid` returns: a pid, 0, or -1 with `EINVAL` or another error. -/
inductive WaitResult
  | reaped
  | none
  | einval
  | failed
  deriving DecidableEq, Repr

namespace Manager

/-- The body of the loop. -/
def reap (wait : DaemonRef → WaitResult) (reason : Option DaemonRef) (s : Manager)
    (ref : DaemonRef) : Manager :=
  if s.fate ≠ .running then s
  else
    match wait ref with
    | .reaped => s.setPid ref 0
    | .none =>
      let s := s.setPid ref 0
      if some ref ≠ reason then s.setStatus ref .died else s
    | .einval => s
    | .failed => { s with fate := .exited }

/-- `kill_and_reap_module`. -/
def killAndReapModule (s : Manager) (k : Nat) (reason : Option DaemonRef)
    (wait : DaemonRef → WaitResult) : Manager :=
  let (s', nkilled) := s.killModule k reason
  let ndaemons := (s.modules[k]?.map UkernelModule.ndaemons).getD 0
  (reaped k ndaemons nkilled).foldl (reap wait reason) s'

end Manager

end Comsg.Coprocd
