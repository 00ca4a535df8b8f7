import Comsg.Coeventd.Daemon

/-!
# `Comsg.Coeventd.Counters`: the counters of events and of functions

coeventd with `ncallbacks` of each event and `consumers` of each function. Nothing reads them, so
they are left out of `Comsg.Coeventd.Daemon`. Here every function that writes them is given again.
They do not overflow here. What a client stores to a counter in its own memory is left out.

* `queueCocallback`: `add_cocallback` (`coevent_utils.c:46-68`), which counts a consumer and no
  callback.
* `allocateProcdeathEvent`: `procdeath_tbl.c:67-93`.
* `registerCocallbackFunc`: `cocallback_func_utils.c:133-150`. `realloc` copies the entries.
* `triggerLoop`: `get_next_cocallback` and `free_cocallback` in `trigger_cocallbacks`
  (`coevent_utils.c:94-120`, `procdeath.c:146-170`). A callback that fails is not freed.
-/

set_option autoImplicit false

namespace Comsg.Coeventd

/-- coeventd with its counters. -/
structure CountedDaemon where
  daemon : Daemon
  ncallbacks : Nat → Int
  consumers : Ptr → Int

namespace CountedDaemon

/-- `allocate_procdeath_event`. -/
def allocateProcdeathEvent (c : CountedDaemon) (pid : Nat) : Option CountedDaemon :=
  let proc := c.daemon.procTable pid
  (c.daemon.allocateProcdeathEvent pid).map fun daemon =>
    if proc.cePid ≠ pid ∨ proc.inProgress = -1 then
      { c with daemon, ncallbacks := Function.update c.ncallbacks pid 0 }
    else { c with daemon }

/-- `add_cocallback`. -/
def queueCocallback (c : CountedDaemon) (pid : Nat) (e : Coevent) (func : Ptr)
    (args : CocallbackArgs) : Except Stop (CountedDaemon × Coevent) := do
  let (daemon, e) ← c.daemon.queueCocallback pid e func args
  .ok ({ c with daemon, consumers := Function.update c.consumers func (c.consumers func + 1) }, e)

/-- `add_event_listener`. -/
def addEventListener (c : CountedDaemon) (pid : Nat) (event : CoeventType) (subject : Nat) :
    Except Stop (CountedDaemon × Reply) :=
  match event with
  | .processDeath =>
    if pid ≠ subject then .ok (c, .err .eintegrity)
    else
      match c.allocateProcdeathEvent pid with
      | none    => .ok (c, .err .einval)
      | some c' => .ok (c', .coevent pid)
  | .other _ => .ok (c, .err .einval)

/-- `monitor_provider`. -/
def monitorProvider (c : CountedDaemon) (pid : Nat) : Except Stop CountedDaemon :=
  match c.allocateProcdeathEvent pid with
  | none => .error .faults
  | some c => do
    let e ← (c.daemon.procTable pid).lockCoevent
    let (c, e) ←
      if e.callbacks = [] then c.queueCocallback pid e c.daemon.providerDeath (.provided [])
      else .ok (c, e)
    let e ← e.unlockCoevent
    .ok { c with daemon := c.daemon.setEvent pid e }

/-- `realloc` of the table of functions: the counters of its entries at the new place. -/
def moveConsumers (consumers : Ptr → Int) (base newBase n : Nat) (ptr : Ptr) : Int :=
  if ptr.base = newBase ∧ ptr.idx < n then consumers ⟨base, ptr.idx⟩ else consumers ptr

/-- `register_cocallback_func`. -/
def registerCocallbackFunc (c : CountedDaemon) (provider : Nat) (scb : Scb) (flags : Flags)
    (newBase : Nat) : Option (CountedDaemon × Ptr) :=
  (c.daemon.registerCocallbackFunc provider scb flags newBase).map fun (daemon, func) =>
    let consumers := moveConsumers c.consumers c.daemon.base daemon.base c.daemon.funcs.length
    ({ c with daemon, consumers := Function.update consumers func 0 }, func)

/-- `validate_cocallback_register` and `cocallback_register`. -/
def cocallbackRegister (c : CountedDaemon) (pid : Nat) (scb : Scb) (flags : Flags)
    (newBase : Nat) : Except Stop (CountedDaemon × Reply) :=
  if scb.tag = false ∨ scb.isSealed = false then .ok (c, .err .einval)
  else do
    let c ← c.monitorProvider pid
    match c.registerCocallbackFunc pid scb flags newBase with
    | none => .ok (c, .err .einval)
    | some (c, func) =>
      let daemon ← c.daemon.addFuncToProvider pid func
      .ok ({ c with daemon }, .func func)

/-- `validate_cocallback_install` and `install_cocallback`. -/
def installCocallback (c : CountedDaemon) (tag : Bool) (coevent : EventTarget) (funcTag : Bool)
    (func : Ptr) (args : CocallbackArgs) : Except Stop (CountedDaemon × Reply) :=
  match Daemon.validateCoevent tag coevent with
  | none => .ok (c, .err .einval)
  | some pid => do
    let e ← (c.daemon.procTable pid).lockCoevent
    let (c, e) ← c.queueCocallback pid e func args
    if e.cePid ≠ pid ∨ pid = 0 ∨ funcTag = false then .error .faults
    else
      let e ← e.unlockCoevent
      .ok ({ c with daemon := c.daemon.setEvent pid e }, .done)

/-- The loop of `trigger_cocallbacks`. -/
def triggerLoop (c : CountedDaemon) (pid : Nat) : List Cocallback → CountedDaemon
  | [] => { c with daemon :=
      c.daemon.setEvent pid { c.daemon.procTable pid with inProgress := -1 } }
  | ccb :: rest =>
    let (t, outcome) := c.daemon.executeCocallback ccb
    let entry : Handled := ⟨ccb, c.daemon.alive (c.daemon.deref ccb.func).provider, outcome⟩
    let t : Daemon := { t.setEvent pid { t.procTable pid with callbacks := rest } with
      handled := Function.update t.handled pid (t.handled pid ++ [entry]) }
    let ncallbacks := Function.update c.ncallbacks pid (c.ncallbacks pid - 1)
    if outcome = .failed then { c with daemon := { t with fate := .terminated }, ncallbacks }
    else
      let consumers := Function.update c.consumers ccb.func (c.consumers ccb.func - 1)
      triggerLoop ⟨t, ncallbacks, consumers⟩ pid rest

/-- `trigger_cocallbacks`. -/
def triggerCocallbacks (c : CountedDaemon) (pid : Nat) : CountedDaemon :=
  let e := { c.daemon.procTable pid with inProgress := 1 }
  let daemon := { c.daemon.setEvent pid e with
    monitored := Function.update c.daemon.monitored pid false }
  triggerLoop { c with daemon } pid e.callbacks

/-- One request of process `pid`. -/
def handle (c : CountedDaemon) (pid : Nat) : Request → Except Stop (CountedDaemon × Reply)
  | .colisten event subject => c.addEventListener pid event subject
  | .ccbRegister scb flags newBase => c.cocallbackRegister pid scb flags newBase
  | .ccbInstall tag coevent funcTag func len cocallData =>
    c.installCocallback tag coevent funcTag func (.data len cocallData)

/-- One step of coeventd while it serves. -/
def step (c : CountedDaemon) (a : Action) : Option CountedDaemon :=
  if c.daemon.fate ≠ .serving then none
  else
    match a with
    | .request pid r =>
      if c.daemon.alive pid = true ∧ pid ≠ c.daemon.mypid then
        match c.handle pid r with
        | .ok (c', _)    => some c'
        | .error .spins  => none
        | .error .faults => some { c with daemon := { c.daemon with fate := .faulted } }
        | .error .aborts => some { c with daemon := { c.daemon with fate := .aborted } }
      else none
    | .report pid =>
      if c.daemon.alive pid = false ∧ c.daemon.monitored pid = true then
        some (c.triggerCocallbacks pid)
      else none
    -- The clients write no counter of coeventd.
    | a => (c.daemon.step a).map fun daemon => { c with daemon }

end CountedDaemon

/-- coeventd after its start. All its memory is zero. -/
def initCountedDaemon (mypid base : Nat) (memory : Ptr → CocallbackFunc)
    (chains : Ptr → List Ptr) : CountedDaemon where
  daemon := initDaemon mypid base memory chains
  ncallbacks := fun _ => 0
  consumers := fun _ => 0

end Comsg.Coeventd
