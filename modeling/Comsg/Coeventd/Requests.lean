import Comsg.Coeventd.Daemon
import Comsg.Lib.Threads

/-!
# `Comsg.Coeventd.Requests`: the requests of coeventd, step by step

`Comsg.Coeventd.Daemon` handles one request at a time. coeventd has several worker threads for
each kind of request, and one thread that waits for deaths. Here every thread goes from one
access of shared data to the next one, and any number of them take turns.

* `Pc.allocate` to `Pc.publish`: `allocate_procdeath_event` (`procdeath_tbl.c:67-93`). `fired`
  says that the second exchange has succeeded.
* `Pc.lock` to `Pc.release`: `lock_coevent` and `unlock_coevent` (`coevent_utils.c:70-92`), around
  the critical sections of `monitor_provider`, `add_func_to_provider` (`cocallback_register.c`)
  and `install_cocallback` (`cocallback_install.c`). A thread that does not get the lock tries
  again.
* `Pc.fetchAdd` to `Pc.fill`: `register_cocallback_func`, `allocate_ccb_func` and
  `extend_ccb_table` (`cocallback_func_utils.c`). The `continue` ends the loop, whose condition
  is false. `extend_ccb_table` is one step, since it holds `table_alloc_lock`.
* `Pc.begin` to `Pc.finish`: `trigger_cocallbacks` (`procdeath.c:146-170`).

`ccb_func_tbl.idx` is the length of `funcs`. An entry that is reserved is all zero until it is
filled in. The accesses to a queue inside of a critical section are one step.
-/

set_option autoImplicit false

namespace Comsg.Coeventd

open Comsg.Lib

/-- The critical sections. -/
inductive Section
  | monitor
  | provide (func : Ptr)
  | install
  deriving DecidableEq, Repr

/-- Where a thread is. -/
inductive Pc
  | entry
  | allocate
  | reallocate
  | setUp (fired : Bool)
  | publish
  | lock (sec : Section)
  | body (sec : Section)
  | unlock (sec : Section)
  | release (sec : Section) (seen : Int)
  | fetchAdd
  | check (funcIndex : Nat)
  | extend (funcIndex : Nat)
  | address (funcIndex : Nat)
  | fill (func : Ptr)
  | begin
  | next
  | execute (ccb : Cocallback)
  | finish
  | replied (reply : Reply)
  | ended
  deriving DecidableEq, Repr

/-- The process whose event a thread works on. -/
def Action.event : Action → Nat
  | .request _ (.ccbInstall _ (.proc p) _ _ _ _) => p
  | .request pid _                               => pid
  | .store _ _ _                                 => 0
  | .die pid                                     => pid
  | .report pid                                  => pid

/-- An entry of the table that is all zero. -/
def zeroFunc : CocallbackFunc := ⟨nullScb, 0, 0⟩

namespace Daemon

/-- coeventd is gone. -/
def halt (s : Daemon) : Stop → Daemon
  | .spins  => s
  | .faults => { s with fate := .faulted }
  | .aborts => { s with fate := .aborted }

/-- The request is validated, or the kernel reports a death. -/
def enter (s : Daemon) : Action → Option (Daemon × Pc)
  | .request pid r =>
    if s.alive pid = true ∧ pid ≠ s.mypid then
      match r with
      | .colisten .processDeath subject =>
        if pid ≠ subject then some (s, .replied (.err .eintegrity)) else some (s, .allocate)
      | .colisten (.other _) _ => some (s, .replied (.err .einval))
      | .ccbRegister scb _ _ =>
        if scb.tag = false ∨ scb.isSealed = false then some (s, .replied (.err .einval))
        else some (s, .allocate)
      | .ccbInstall tag coevent _ _ _ _ =>
        match validateCoevent tag coevent with
        | none   => some (s, .replied (.err .einval))
        | some _ => some (s, .lock .install)
    else none
  | .store ptr func chain => some ({ s with
      memory := Function.update s.memory ptr func
      chains := Function.update s.chains ptr chain }, .ended)
  | .die pid =>
    if s.alive pid = true ∧ pid ≠ s.mypid then
      some ({ s with alive := Function.update s.alive pid false }, .ended)
    else none
  | .report pid =>
    if s.alive pid = false ∧ s.monitored pid = true then
      some ({ s with monitored := Function.update s.monitored pid false }, .begin)
    else none

/-- `allocate_procdeath_event` has returned `NULL`. `monitor_provider` does not check it. -/
def refused (s : Daemon) : Action → Daemon × Pc
  | .request _ (.ccbRegister _ _ _) => (s.halt .faults, .ended)
  | _                               => (s, .replied (.err .einval))

/-- `allocate_procdeath_event` has returned the event of `p`. -/
def opened (p : Nat) : Action → Pc
  | .request _ (.ccbRegister _ _ _) => .lock .monitor
  | _                               => .replied (.coevent p)

/-- What is done under the lock of the event of `p`. -/
def critical (s : Daemon) (a : Action) (p : Nat) : Section → Except Stop Daemon
  | .monitor =>
    if (s.procTable p).callbacks = [] then do
      let (s, e) ← s.queueCocallback p (s.procTable p) s.providerDeath (.provided [])
      .ok (s.setEvent p e)
    else .ok s
  | .provide func =>
    match (s.procTable p).callbacks with
    | [] => .error .faults
    | ccb :: rest =>
      if ccb.func ≠ s.providerDeath then .error .aborts
      else
        let ccb := { ccb with args := .provided (func :: s.providedFuncs ccb.args) }
        .ok (s.setEvent p { s.procTable p with callbacks := ccb :: rest })
  | .install =>
    match a with
    | .request _ (.ccbInstall _ _ funcTag func len cocallData) => do
      let (s, e) ← s.queueCocallback p (s.procTable p) func (.data len cocallData)
      if e.cePid ≠ p ∨ p = 0 ∨ funcTag = false then .error .faults
      else .ok (s.setEvent p e)
    | _ => .error .faults

/-- Where a thread goes after a critical section. -/
def leave : Section → Pc
  | .monitor      => .fetchAdd
  | .provide func => .replied (.func func)
  | .install      => .replied .done

/-- The fields of a new function are stored. The memory of a table that has moved is free. -/
def fillFunc (s : Daemon) (ptr : Ptr) (func : CocallbackFunc) : Daemon :=
  if ptr.base = s.base then { s with funcs := s.funcs.set ptr.idx func }
  else { s with memory := Function.update s.memory ptr func }

/-- `register_cocallback_func` for process `pid`. -/
def registerStep (s : Daemon) (pid : Nat) (scb : Scb) (flags : Flags) (newBase : Nat) :
    Pc → Option (Daemon × Pc)
  | .fetchAdd =>
    if pid ≠ s.mypid ∧ scb.tag = false then some (s, .replied (.err .einval))
    else some ({ s with funcs := s.funcs ++ [zeroFunc] }, .check s.funcs.length)
  | .check funcIndex =>
    if s.tblLen ≤ funcIndex then some (s, .extend funcIndex) else some (s, .address funcIndex)
  | .extend funcIndex =>
    if s.funcs.length < s.tblLen then some (s, .address funcIndex)
    else
      some ({ s with base := newBase, tblLen := s.tblLen + baseTblLen }, .address funcIndex)
  | .address funcIndex =>
    -- The bounds of the table are set on the pointer, so an index behind it is of no use.
    if funcIndex < s.tblLen then some (s, .fill ⟨s.base, funcIndex⟩)
    else some (s.halt .faults, .ended)
  | .fill func => some (s.fillFunc func ⟨scb, pid, flags⟩, .lock (.provide func))
  | _ => none

/-- A callback that `trigger_cocallbacks` has taken is executed. -/
def executeStep (s : Daemon) (p : Nat) (ccb : Cocallback) : Daemon × Pc :=
  let (t, outcome) := s.executeCocallback ccb
  let entry : Handled := ⟨ccb, s.alive (s.deref ccb.func).provider, outcome⟩
  let t : Daemon :=
    { t with handled := Function.update t.handled p (t.handled p ++ [entry]) }
  if outcome = .failed then ({ t with fate := .terminated }, .ended) else (t, .next)

/-- One step of a thread that works on the event of `p`. -/
def threadStep (s : Daemon) (a : Action) (p : Nat) (pc : Pc) : Option (Daemon × Pc) :=
  let e := s.procTable p
  match pc with
  | .entry => s.enter a
  | .allocate =>
    if e.inProgress = 0 then some (s.setEvent p { e with inProgress := 1 }, .setUp false)
    else some (s, .reallocate)
  | .reallocate =>
    if e.inProgress = -1 then some (s.setEvent p { e with inProgress := 1 }, .setUp true)
    else some (s.refused a)
  | .setUp fired =>
    if e.cePid ≠ p ∨ fired = true then
      some ({ s.setEvent p { e with cePid := p, callbacks := [] } with
        monitored := Function.update s.monitored p true }, .publish)
    else some (s, .publish)
  | .publish => some (s.setEvent p { e with inProgress := 0 }, opened p a)
  | .lock sec =>
    match e.lockCoevent with
    | .ok e    => some (s.setEvent p e, .body sec)
    | .error _ => some (s, .lock sec)
  | .body sec =>
    match s.critical a p sec with
    | .ok s       => some (s, .unlock sec)
    | .error stop => some (s.halt stop, .ended)
  | .unlock sec =>
    if e.inProgress = 0 then some (s.halt .aborts, .ended)
    else some (s, .release sec e.inProgress)
  | .release sec seen =>
    if e.inProgress = seen then some (s.setEvent p { e with inProgress := 0 }, leave sec)
    else some (s.halt .aborts, .ended)
  | .begin => some (s.setEvent p { e with inProgress := 1 }, .next)
  | .next =>
    match e.getNextCocallback with
    | (none, _)     => some (s, .finish)
    | (some ccb, e) => some (s.setEvent p e, .execute ccb)
  | .execute ccb => some (s.executeStep p ccb)
  | .finish => some (s.setEvent p { e with inProgress := -1 }, .ended)
  | .replied _ => none
  | .ended => none
  | pc =>
    match a with
    | .request pid (.ccbRegister scb flags newBase) => s.registerStep pid scb flags newBase pc
    | _ => none

/-- One step of a thread while coeventd serves. -/
def advance (s : Daemon) (a : Action) (pc : Pc) : Option (Daemon × Pc) :=
  if s.fate ≠ .serving then none else s.threadStep a a.event pc

/-- A pointer that a client passes is not the one to coeventd's own function. -/
def Held (s : Daemon) : Action → Prop
  | .request _ (.ccbInstall _ _ funcTag func _ _) => funcTag = true → func ≠ s.providerDeath
  | _ => True

instance (s : Daemon) : DecidablePred s.Held
  | .request _ (.ccbInstall _ _ funcTag func _ _) =>
    inferInstanceAs (Decidable (funcTag = true → func ≠ s.providerDeath))
  | .request _ (.colisten _ _)      => .isTrue trivial
  | .request _ (.ccbRegister _ _ _) => .isTrue trivial
  | .store _ _ _                    => .isTrue trivial
  | .die _                          => .isTrue trivial
  | .report _                       => .isTrue trivial

end Daemon

/-- coeventd with its threads. -/
abbrev Daemons := Pool Daemon Action Pc

/-- One step of coeventd. coeventd gives the pointer to its own function to nobody. -/
def requestStep (s : Daemons) (act : PoolAct Action) : Option Daemons :=
  match act with
  | .arrive a =>
    if s.shared.Held a then poolStep .entry Daemon.advance s (.arrive a) else none
  | .advance r => poolStep .entry Daemon.advance s (.advance r)

end Comsg.Coeventd
