import Comsg.Coprocd.InitModule
import Comsg.Coprocd.Module

/-!
# `Comsg.Coprocd.Children`: coprocd and the processes that it has started

The table says which daemons there are, and the kernel says which processes there are. Here the
two are side by side.

* `Child`: a process that coprocd has started, and has not waited for with success. It runs, or it
  has ended and its death is still to be reported.
* `startedBy`, `reapedBy`: the processes that a turn of `runloop` starts, and the pids that it
  waits for with success (`runloop.c:72-95`, `daemon.c:89-149`, `module.c:136-182`).
* `supervisionStep`: the kernel reports each death once, to the handler of `SIGCHLD`, and
  `daemon_died` and `just_reap` wait for the child first.

A process that is killed ends like any other (`exit`). `launched` has the processes that the launch
has started: it starts each daemon at most once, and coprocd itself is the first one of the table.
-/

set_option autoImplicit false

namespace Comsg.Coprocd

/-- A process, and the daemon that it was started for. -/
structure Child where
  daemon : DaemonRef
  pid : Nat
  deriving DecidableEq, Repr

/-- The process that a call of `init_module` starts. -/
def ModuleCall.started (k : Nat) (o : Launch) : ModuleCall → Option Child
  | .start i => (o.spawn ⟨k, i⟩).map fun pid => ⟨⟨k, i⟩, pid⟩
  | .wait _  => none

namespace Manager

/-- The pid in the entry of a daemon. -/
def pidAt (s : Manager) (ref : DaemonRef) : Option Nat := (s.daemon? ref).map UkernelDaemon.pid

/-- The number of daemons in each module. -/
def sizes (s : Manager) : List Nat := s.modules.map UkernelModule.ndaemons

/-- The daemons of the table. -/
def refs (s : Manager) : List DaemonRef :=
  (List.range s.modules.length).flatMap fun k =>
    (List.range ((s.modules[k]?.map UkernelModule.ndaemons).getD 0)).map fun i => ⟨k, i⟩

/-- The processes that the launch has started. -/
def launched (s : Manager) : List Child :=
  (s.refs.filter fun ref => ref ≠ ⟨0, 0⟩).filterMap fun ref =>
    (s.pidAt ref).bind fun pid => if pid = 0 then none else some ⟨ref, pid⟩

/-- What `restart_daemon` starts. -/
def daemonStarts (s : Manager) (ref : DaemonRef) (o : Restart) : List Child :=
  match s.daemon? ref with
  | none => []
  | some d =>
    let s := if d.pid ≠ 0 then s.killAndReapDaemon ref d.pid o else s
    if d.failAct ≠ .dirtyRestart ∨ s.fate ≠ .running ∨ o.error = true then []
    else ((o.launch.spawn ref).map fun pid => ⟨ref, pid⟩).toList

/-- What `restart_module` starts. -/
def moduleStarts (s : Manager) (k : Nat) (ref : DaemonRef) (o : Restart) : List Child :=
  match s.modules[k]?, s.daemon? ref with
  | some m, some d =>
    if (m.fini.map ModuleFuncs.start).getD false = false ∨ d.failAct ≠ .cleanRestart ∨
        (s.killAndReapModule k (some ref) o.wait).fate ≠ .running then []
    else
      let flags := (m.daemons.take m.ndaemons).map UkernelDaemon.flags
      (initCalls k o.launch 0 false flags).1.filterMap (ModuleCall.started k o.launch)
  | _, _ => []

/-- What a turn of `runloop` starts. -/
def startedBy (s : Manager) (o : Restart) : List Child :=
  match s.moduleRestart, s.daemonRestart with
  | some k, some ref => s.moduleStarts k ref o
  | none, some ref   => s.daemonStarts ref o
  | _, none          => []

/-- The pids that a turn of `runloop` waits for with success. -/
def reapedBy (s : Manager) (o : Restart) : List Nat :=
  match s.moduleRestart, s.daemonRestart with
  | some k, some ref =>
    let ndaemons := (s.modules[k]?.map UkernelModule.ndaemons).getD 0
    let waited := reaped k ndaemons (s.killModule k (some ref)).2
    (waited.filter fun r => o.wait r = .reaped).filterMap s.pidAt
  | none, some ref =>
    if o.killed = .ok ∧ o.wait ref = .reaped then (s.pidAt ref).toList else []
  | _, none => []

end Manager

/-- coprocd and its children. -/
structure Supervision where
  manager : Manager
  running : List Child
  ended : List Child

def Supervision.children (s : Supervision) : List Child := s.running ++ s.ended

inductive SupervisionAct
  | store (ref : DaemonRef) (status : Status)
  | exit (c : Child)
  | sigchld (c : Child)
  | runloop (o : Restart)

/-- One step. -/
def supervisionStep (s : Supervision) : SupervisionAct → Option Supervision
  | .store ref status =>
    (s.manager.step (.store ref status)).map fun manager => { s with manager := manager }
  | .exit c =>
    if c ∈ s.running then
      some { s with running := s.running.filter (· ≠ c), ended := c :: s.ended }
    else none
  | .sigchld c =>
    if c ∈ s.ended then
      (s.manager.step (.sigchld c.pid .reaped)).map fun manager =>
        { s with manager := manager, ended := s.ended.filter (· ≠ c) }
    else none
  | .runloop o =>
    (s.manager.step (.runloop o)).map fun manager =>
      { manager := manager
        running := s.running ++ s.manager.startedBy o
        ended := s.ended.filter fun c => c.pid ∉ s.manager.reapedBy o }

/-- coprocd after its launch. -/
def supervise (manager : Manager) : Supervision := ⟨manager, manager.launched, []⟩

/-- New processes have pids of their own, which no child has, no entry holds, and no two of them
share. -/
structure FreshPids (s : Supervision) (o : Launch) : Prop where
  pos : ∀ ref pid, o.spawn ref = some pid → pid ≠ 0
  children : ∀ ref pid, o.spawn ref = some pid → ∀ c ∈ s.children, c.pid ≠ pid
  entries : ∀ ref pid, o.spawn ref = some pid → ∀ r, s.manager.pidAt r ≠ some pid
  apart : ∀ ref ref' pid, o.spawn ref = some pid → o.spawn ref' = some pid → ref = ref'

/-- No process of the module is left that `runloop` is to restart. -/
def ModuleGone (s : Supervision) : Prop :=
  ∀ k, s.manager.moduleRestart = some k → ∀ c ∈ s.children, c.daemon.module ≠ k

/-- `runloop` starts processes with pids of their own, and restarts a module after all of its
processes. -/
def Supervised (s : Supervision) : SupervisionAct → Prop
  | .runloop o => FreshPids s o.launch ∧ ModuleGone s
  | _          => True

end Comsg.Coprocd
