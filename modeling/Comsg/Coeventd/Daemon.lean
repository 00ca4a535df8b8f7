import Comsg.Coeventd.Coevent
import Comsg.Include.Coport
import Mathlib.Logic.Function.Basic

/-!
# `Comsg.Coeventd.Daemon`: the requests and the deaths that coeventd handles

coeventd keeps a table of the functions that clients have registered, and one coevent for each
process. The requests and the reports of the kernel are handled one at a time.

* `ccb_func_tbl` and its functions: `cocallback_func_utils.c`.
* `allocateProcdeathEvent`: `procdeath_tbl.c`.
* `addEventListener`: `coevent_listen.c`.
* `cocallbackRegister`, `monitorProvider`, `addFuncToProvider`: `cocallback_register.c`.
* `installCocallback`: `cocallback_install.c`.
* `executeCocallback`, `triggerCocallbacks`: `procdeath.c`.

A process makes requests while it is alive. The kernel reports the death of a process that is
monitored once, at any time after it. A `cocall` to an SCB of a live process returns, and any
other fails. The memory outside of the table belongs to the clients, or it is free. A pointer to
a coevent is at the base of its bounds. The death of coprocd, which ends coeventd, is left out.

`added` and `handled` record for each event the callbacks that were queued on it, by their
serial numbers, and those that the trigger has taken.
-/

set_option autoImplicit false

namespace Comsg.Coeventd

open Comsg.Lib

/-- The capability that a provider registers: `owner` is the process of the SCB, if it is one. -/
structure Scb where
  tag : Bool
  isSealed : Bool
  owner : Option Nat
  deriving DecidableEq, Repr

def nullScb : Scb := ⟨false, false, none⟩

/-- `cocallback_func_t`. -/
structure CocallbackFunc where
  scb : Scb
  provider : Nat
  flags : Flags
  deriving DecidableEq, Repr

/-- `coevent_type_t`, with the values that are no member of it. -/
inductive CoeventType
  | processDeath
  | other (value : Nat)
  deriving DecidableEq, Repr

/-- What a pointer to a coevent leads to: an entry of `proc_table`, or other memory, with the
type that it holds. -/
inductive EventTarget
  | proc (pid : Nat)
  | foreign (event : CoeventType)
  deriving DecidableEq, Repr

/-- The requests. `newBase` is where `realloc` puts the table, if it is called. -/
inductive Request
  | colisten (event : CoeventType) (subject : Nat)
  | ccbRegister (scb : Scb) (flags : Flags) (newBase : Nat)
  | ccbInstall (tag : Bool) (coevent : EventTarget) (funcTag : Bool) (func : Ptr) (len : Nat)
      (cocallData : Ptr)
  deriving DecidableEq, Repr

/-- The answers. -/
inductive Reply
  | coevent (pid : Nat)
  | func (ptr : Ptr)
  | done
  | err (error : Errno)
  deriving DecidableEq, Repr

/-- What `execute_cocallback` did: it flagged the functions of a provider (0), found a dead
provider (1), called the provider (0), or failed to (-1). -/
inductive Outcome
  | flagged
  | skipped
  | called
  | failed
  deriving DecidableEq, Repr

/-- A callback that the trigger has taken. -/
structure Handled where
  ccb : Cocallback
  providerAlive : Bool
  outcome : Outcome
  deriving DecidableEq, Repr

/-- coeventd serves requests, or it is gone: by a fault, a failed assertion or `err`. -/
inductive Fate
  | serving
  | faulted
  | aborted
  | terminated
  deriving DecidableEq, Repr

def baseTblLen : Nat := 4096

/-- coeventd and what it depends on. -/
structure Daemon where
  mypid : Nat
  base : Nat
  tblLen : Nat
  funcs : List CocallbackFunc
  providerDeath : Ptr
  procTable : Nat → Coevent
  monitored : Nat → Bool
  alive : Nat → Bool
  /-- The functions and the lists that are found outside of the table. -/
  memory : Ptr → CocallbackFunc
  chains : Ptr → List Ptr
  fate : Fate
  serial : Nat
  added : Nat → List Nat
  handled : Nat → List Handled

namespace Daemon

/-! ### The table of functions -/

/-- The function under a pointer. -/
def deref (s : Daemon) (ptr : Ptr) : CocallbackFunc :=
  match (if ptr.base = s.base then s.funcs[ptr.idx]? else none) with
  | some func => func
  | none      => s.memory ptr

/-- `func->flags |= FLAG_DEAD`. -/
def flagFunc (s : Daemon) (ptr : Ptr) : Daemon :=
  if ptr.base = s.base ∧ ptr.idx < s.funcs.length then
    { s with funcs := s.funcs.modify ptr.idx fun f => { f with flags := f.flags ||| flagDead } }
  else
    let func := s.memory ptr
    { s with memory :=
        Function.update s.memory ptr { func with flags := func.flags ||| flagDead } }

/-- The list that the union of the arguments holds, or is taken for. -/
def providedFuncs (s : Daemon) : CocallbackArgs → List Ptr
  | .provided funcs => funcs
  | .data _ ptr     => s.chains ptr

/-- `flag_dead_provider`. -/
def flagDeadProvider (s : Daemon) (ccb : Cocallback) : Daemon :=
  (s.providedFuncs ccb.args).foldl flagFunc s

/-- `register_cocallback_func`: `NULL` or the new entry. A full table is extended first. -/
def registerCocallbackFunc (s : Daemon) (provider : Nat) (scb : Scb) (flags : Flags)
    (newBase : Nat) : Option (Daemon × Ptr) :=
  if provider ≠ s.mypid ∧ scb.tag = false then none
  else
    let funcIndex := s.funcs.length
    let (base, tblLen) :=
      if s.tblLen ≤ funcIndex then (newBase, s.tblLen + baseTblLen) else (s.base, s.tblLen)
    some ({ s with base := base, tblLen := tblLen, funcs := s.funcs ++ [⟨scb, provider, flags⟩] },
      ⟨base, funcIndex⟩)

/-! ### The table of events -/

def setEvent (s : Daemon) (pid : Nat) (e : Coevent) : Daemon :=
  { s with procTable := Function.update s.procTable pid e }

/-- A callback joins the queue of an event whose lock is held. -/
def queueCocallback (s : Daemon) (pid : Nat) (e : Coevent) (func : Ptr) (args : CocallbackArgs) :
    Except Stop (Daemon × Coevent) := do
  let e ← e.addCocallback ⟨s.serial, func, args⟩
  .ok ({ s with
    serial := s.serial + 1
    added := Function.update s.added pid (s.added pid ++ [s.serial]) }, e)

/-- `allocate_procdeath_event`. It returns `NULL` while the event is in progress. -/
def allocateProcdeathEvent (s : Daemon) (pid : Nat) : Option Daemon :=
  let proc := s.procTable pid
  if proc.inProgress ≠ 0 ∧ proc.inProgress ≠ -1 then none
  else if proc.cePid ≠ pid ∨ proc.inProgress = -1 then
    some { s.setEvent pid ⟨pid, 0, []⟩ with monitored := Function.update s.monitored pid true }
  else some s

/-! ### `colisten` -/

/-- `add_event_listener`. -/
def addEventListener (s : Daemon) (pid : Nat) (event : CoeventType) (subject : Nat) :
    Except Stop (Daemon × Reply) :=
  match event with
  | .processDeath =>
    if pid ≠ subject then .ok (s, .err .eintegrity)
    else
      match s.allocateProcdeathEvent pid with
      | none    => .ok (s, .err .einval)
      | some s' => .ok (s', .coevent pid)
  | .other _ => .ok (s, .err .einval)

/-! ### `ccb_register` -/

/-- `monitor_provider`. -/
def monitorProvider (s : Daemon) (pid : Nat) : Except Stop Daemon :=
  match s.allocateProcdeathEvent pid with
  | none => .error .faults
  | some s => do
    let e ← (s.procTable pid).lockCoevent
    let (s, e) ←
      if e.callbacks = [] then s.queueCocallback pid e s.providerDeath (.provided [])
      else .ok (s, e)
    let e ← e.unlockCoevent
    .ok (s.setEvent pid e)

/-- `add_func_to_provider`. -/
def addFuncToProvider (s : Daemon) (pid : Nat) (func : Ptr) : Except Stop Daemon := do
  let e ← (s.procTable pid).lockCoevent
  match e.callbacks with
  | [] => .error .faults
  | ccb :: rest =>
    if ccb.func ≠ s.providerDeath then .error .aborts
    else
      let ccb := { ccb with args := .provided (func :: s.providedFuncs ccb.args) }
      let e ← { e with callbacks := ccb :: rest }.unlockCoevent
      .ok (s.setEvent pid e)

/-- `validate_cocallback_register` and `cocallback_register`. -/
def cocallbackRegister (s : Daemon) (pid : Nat) (scb : Scb) (flags : Flags) (newBase : Nat) :
    Except Stop (Daemon × Reply) :=
  if scb.tag = false ∨ scb.isSealed = false then .ok (s, .err .einval)
  else do
    let s ← s.monitorProvider pid
    match s.registerCocallbackFunc pid scb flags newBase with
    | none => .ok (s, .err .einval)
    | some (s, func) =>
      let s ← s.addFuncToProvider pid func
      .ok (s, .func func)

/-! ### `ccb_install` -/

/-- `validate_coevent`. Every entry of the table has the type `PROCESS_DEATH`. -/
def validateCoevent (tag : Bool) (coevent : EventTarget) : Option Nat :=
  if tag = false then none
  else
    match coevent with
    | .proc pid  => some pid
    | .foreign _ => none

/-- `validate_cocallback_install` and `install_cocallback`. `add_cocallback` faults when the event
was never set up, since its queue is not initialised, and when the pointer to the function has no
tag, since it counts a consumer there. -/
def installCocallback (s : Daemon) (tag : Bool) (coevent : EventTarget) (funcTag : Bool)
    (func : Ptr) (args : CocallbackArgs) : Except Stop (Daemon × Reply) :=
  match validateCoevent tag coevent with
  | none => .ok (s, .err .einval)
  | some pid => do
    let e ← (s.procTable pid).lockCoevent
    let (s, e) ← s.queueCocallback pid e func args
    if e.cePid ≠ pid ∨ pid = 0 ∨ funcTag = false then .error .faults
    else
      let e ← e.unlockCoevent
      .ok (s.setEvent pid e, .done)

/-! ### Deaths -/

/-- `cocall_tls` and `slocall_tls`. -/
def cocallTls (s : Daemon) (scb : Scb) : Outcome :=
  match scb.owner with
  | some pid => if s.alive pid then .called else .failed
  | none     => .failed

/-- `execute_cocallback`. -/
def executeCocallback (s : Daemon) (ccb : Cocallback) : Daemon × Outcome :=
  let func := s.deref ccb.func
  if Meets func.flags flagProvider then (s.flagDeadProvider ccb, .flagged)
  else if Meets func.flags flagDead then (s, .skipped)
  else if Meets func.flags flagSlocall then (s, s.cocallTls func.scb)
  else (s, s.cocallTls func.scb)

/-- The loop of `trigger_cocallbacks` for the callbacks that are queued. `in_progress` is 1, so
`get_next_cocallback` takes them in turn. -/
def triggerLoop (s : Daemon) (pid : Nat) : List Cocallback → Daemon
  | [] => s.setEvent pid { s.procTable pid with inProgress := -1 }
  | ccb :: rest =>
    let (t, outcome) := s.executeCocallback ccb
    let entry : Handled := ⟨ccb, s.alive (s.deref ccb.func).provider, outcome⟩
    let t : Daemon := { t.setEvent pid { t.procTable pid with callbacks := rest } with
      handled := Function.update t.handled pid (t.handled pid ++ [entry]) }
    if outcome = .failed then { t with fate := .terminated } else t.triggerLoop pid rest

/-- `trigger_cocallbacks`. The kernel has let go of the event. -/
def triggerCocallbacks (s : Daemon) (pid : Nat) : Daemon :=
  let e := { s.procTable pid with inProgress := 1 }
  triggerLoop { s.setEvent pid e with monitored := Function.update s.monitored pid false } pid
    e.callbacks

/-! ### The daemon -/

/-- One request of process `pid`. -/
def handle (s : Daemon) (pid : Nat) : Request → Except Stop (Daemon × Reply)
  | .colisten event subject => s.addEventListener pid event subject
  | .ccbRegister scb flags newBase => s.cocallbackRegister pid scb flags newBase
  | .ccbInstall tag coevent funcTag func len cocallData =>
    s.installCocallback tag coevent funcTag func (.data len cocallData)

end Daemon

/-- What can happen: a request of a process, a store of a client to its memory, a death, and the
report of a death. -/
inductive Action
  | request (pid : Nat) (r : Request)
  | store (ptr : Ptr) (func : CocallbackFunc) (chain : List Ptr)
  | die (pid : Nat)
  | report (pid : Nat)
  deriving DecidableEq, Repr

namespace Daemon

/-- One step of coeventd while it serves. A request that spins for a lock does not return. -/
def step (s : Daemon) (a : Action) : Option Daemon :=
  if s.fate ≠ .serving then none
  else
    match a with
    | .request pid r =>
      if s.alive pid = true ∧ pid ≠ s.mypid then
        match s.handle pid r with
        | .ok (s', _)    => some s'
        | .error .spins  => none
        | .error .faults => some { s with fate := .faulted }
        | .error .aborts => some { s with fate := .aborted }
      else none
    | .store ptr func chain => some { s with
        memory := Function.update s.memory ptr func
        chains := Function.update s.chains ptr chain }
    | .die pid =>
      if s.alive pid = true ∧ pid ≠ s.mypid then
        some { s with alive := Function.update s.alive pid false }
      else none
    | .report pid =>
      if s.alive pid = false ∧ s.monitored pid = true then some (s.triggerCocallbacks pid)
      else none

end Daemon

/-- coeventd after `init_cocallback_func_utils` and `setup_procdeath_table`, with its table at
`base` and the memory of the clients around it. Every pid but 0 can be that of a process. -/
def initDaemon (mypid base : Nat) (memory : Ptr → CocallbackFunc) (chains : Ptr → List Ptr) :
    Daemon where
  mypid := mypid
  base := base
  tblLen := baseTblLen
  funcs := [⟨nullScb, mypid, flagProvider⟩]
  providerDeath := ⟨base, 0⟩
  procTable := fun _ => ⟨0, 0, []⟩
  monitored := fun _ => false
  alive := fun pid => pid ≠ 0
  memory := memory
  chains := chains
  fate := .serving
  serial := 0
  added := fun _ => []
  handled := fun _ => []

end Comsg.Coeventd
