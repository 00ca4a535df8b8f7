import Comsg.Lib.Transition
import Comsg.Libcomsg.Coservice
import Comsg.Libcomsg.UkernCalls

/-!
# `Comsg.Ukernel.Services`: the services of the microkernel, and how a call gets to one

Each daemon starts its worker threads, makes its functions known as services of coserviced, and puts
these into the root namespace under the names of the functions. A worker runs the function that the
number in a request stands for.

* `coacceptEndpoints`, `sloacceptEndpoints`: the four pairs of `coaccept_endpoints.inc` and
  `sloaccept_endpoints.inc`. `coacceptHandler`: the `switch` of `coaccept_handler` and
  `sloaccept_handler` (`cocall/endpoint.h`).
* `initEndpoints`: `init_endpoints` (`endpoint.c:241-259`), with `spawn_endpoints`.
* `provide`: `coprovide` for the first service of a daemon and `coprovide2` for the others, as
  `init_service`, `init_fast_service`, `init_slow_service` and `start_fast_service` call them.
  coserviced does the same in its own tables.
* `startup`: the order of these in `coserviced_setup.c`, `nsd_setup.c`, `coeventd_setup.c` and
  `ipcd_startup.c`. What a daemon does between them with its own table of SCBs is left out.
* `Microkernel.move`: what others do between the calls of a client.
* `Microkernel.cocall`: a cocall to a worker, for the model of a client in
  `Comsg.Libcomsg.UkernCalls`.
* `Client`: a process whose threads make calls, after `coproc_init` (`ukern_calls.c:461-500`).

The root namespace is a map here, in which a name is inserted once. `started` says which threads of
a daemon have registered themselves. The SCB of another one is `NULL`. What a function does with a
request is `answer`, apart from the three functions that clients find services with.
-/

set_option autoImplicit false

namespace Comsg.Ukernel

open Comsg.Lib
open Comsg.Libcomsg

/-- The daemons that provide services. -/
inductive UkernDaemon
  | coserviced
  | nsd
  | coeventd
  | ipcd
  deriving DecidableEq, Repr

/-- The functions that workers run, after their validators. -/
inductive Handler
  | discoverCoservice
  | discoverCoservice2
  | provideCoservice2
  | provideCoservice
  | namespaceObjectSelect
  | namespaceObjectInsert
  | namespaceObjectUpdate
  | namespaceObjectDelete
  | namespaceCreate
  | namespaceDrop
  | installCocallback
  | cocallbackRegister
  | addEventListener
  | coportOpen
  | coportClose
  | coportSend
  | coportRecv
  | cocarrierPoll
  | freeComsg
  | cocarrierPollSlow
  deriving DecidableEq, Repr

/-- `coaccept_endpoints.inc` of each daemon. -/
def coacceptEndpoints : UkernDaemon → List (CocallNum × Handler)
  | .coserviced =>
    [(.codiscover, .discoverCoservice), (.codiscover2, .discoverCoservice2),
      (.coprovide2, .provideCoservice2), (.coprovide, .provideCoservice)]
  | .nsd =>
    [(.coselect, .namespaceObjectSelect), (.coinsert, .namespaceObjectInsert),
      (.coupdate, .namespaceObjectUpdate), (.codelete, .namespaceObjectDelete),
      (.cocreate, .namespaceCreate), (.codrop, .namespaceDrop)]
  | .coeventd =>
    [(.ccbInstall, .installCocallback), (.ccbRegister, .cocallbackRegister),
      (.colisten, .addEventListener)]
  | .ipcd =>
    [(.coopen, .coportOpen), (.coclose, .coportClose), (.cosend, .coportSend),
      (.corecv, .coportRecv), (.copoll, .cocarrierPoll), (.coportMsgFree, .freeComsg)]

/-- `sloaccept_endpoints.inc` of each daemon. -/
def sloacceptEndpoints : UkernDaemon → List (CocallNum × Handler)
  | .ipcd => [(.slopoll, .cocarrierPollSlow)]
  | _     => []

/-- The functions that the workers of a daemon run on the slow path, or on the other one. -/
def endpointsOf (d : UkernDaemon) (slow : Bool) : List (CocallNum × Handler) :=
  if slow then sloacceptEndpoints d else coacceptEndpoints d

/-- The `switch` of `coaccept_handler` and `sloaccept_handler`. `none` is `ENOSYS`. -/
def coacceptHandler (d : UkernDaemon) (slow : Bool) (op : Nat) : Option Handler :=
  ((endpointsOf d slow).find? fun e => e.1.value = op).map fun e => e.2

/-! ### The state of the microkernel -/

/-- `coservice_t` in the table of coserviced. `impl` is an entry of the table of endpoints. -/
structure Service where
  op : Nat
  slowpath : Bool
  impl : Nat
  deriving DecidableEq, Repr

/-- What the root namespace has under a name. -/
inductive NsEntry
  | absent
  | reservation
  | coservice (i : Nat)
  deriving DecidableEq, Repr

structure Microkernel where
  names : CocallNum → NsEntry
  services : List Service
  endpoints : List (Endpoint (Option WorkerScb))
  /-- The daemon that a worker belongs to, and whether it serves the slow path. -/
  workers : WorkerScb → Option (UkernDaemon × Bool)
  nextScb : WorkerScb
  /-- `get_fast_endpoints` and `get_slow_endpoints`. -/
  scbs : UkernDaemon → Bool → List (Option WorkerScb)
  /-- The endpoint behind `fast_endpoints` and `slow_endpoints`, after the first service. -/
  provided : UkernDaemon → Bool → Option Nat
  /-- How far a daemon is in its startup. -/
  pc : UkernDaemon → Nat

def initMicrokernel : Microkernel where
  names _ := .absent
  services := []
  endpoints := []
  workers _ := none
  nextScb := 0
  scbs _ _ := []
  provided _ _ := none
  pc _ := 0

namespace Microkernel

/-! ### The startup of the daemons -/

/-- `spawn_endpoints`, for `n` threads. -/
def spawnEndpoints (m : Microkernel) (d : UkernDaemon) (slow : Bool) (n : Nat)
    (started : Nat → Bool) : Microkernel :=
  { m with
    workers := fun scb =>
      if m.nextScb ≤ scb ∧ scb < m.nextScb + n then some (d, slow) else m.workers scb
    nextScb := m.nextScb + n
    scbs := Function.update m.scbs d (Function.update (m.scbs d) slow
      ((List.range n).map fun i => if started i then some (m.nextScb + i) else none)) }

/-- `init_endpoints`. There are as many workers as functions, and one for each processor at least. -/
def initEndpoints (m : Microkernel) (d : UkernDaemon) (ncpu : Nat) (started : Nat → Bool) :
    Microkernel :=
  let nSlow := (sloacceptEndpoints d).length
  let nFast := (coacceptEndpoints d).length
  let m := if nSlow ≠ 0 then m.spawnEndpoints d true (max nSlow ncpu) started else m
  if nFast ≠ 0 then m.spawnEndpoints d false (max nFast ncpu) started else m

/-- The service of a function, and its endpoint. Only the first one of a daemon gets the flag for the
slow path. -/
def provide (m : Microkernel) (d : UkernDaemon) (slow : Bool) (func : CocallNum) : Microkernel :=
  match m.provided d slow with
  | none =>
    let scbs := m.scbs d slow
    let nextWorker := if d = .coserviced then 1 else 0
    { m with
      endpoints := m.endpoints ++ [⟨scbs, scbs.length, nextWorker⟩]
      services := m.services ++ [⟨func.value, slow, m.endpoints.length⟩]
      provided := Function.update m.provided d
        (Function.update (m.provided d) slow (some m.endpoints.length)) }
  | some e => { m with services := m.services ++ [⟨func.value, false, e⟩] }

/-- The name of the function gets its entry. -/
def setName (m : Microkernel) (func : CocallNum) (entry : NsEntry) : Microkernel :=
  { m with names := Function.update m.names func entry }

end Microkernel

/-- What a daemon does in its startup. -/
inductive StartupAct
  /-- `init_endpoints`. -/
  | endpoints
  /-- `new_nsobject(name, RESERVATION, root_ns)` of nsd. -/
  | reserve (func : CocallNum)
  /-- A service of another daemon has to be there. -/
  | await (func : CocallNum)
  /-- The service is provided, and inserted under its name. -/
  | insert (func : CocallNum) (slow : Bool)
  /-- The service is provided, and takes the place of the reservation. -/
  | update (func : CocallNum)
  deriving DecidableEq, Repr

/-- The services of a daemon, in the order of its lists. -/
def insertAll (d : UkernDaemon) : List StartupAct :=
  (coacceptEndpoints d).map (fun e => .insert e.1 false) ++
    (sloacceptEndpoints d).map fun e => .insert e.1 true

/-- `coserviced_startup`, `init_services` of nsd, `coeventd_startup` and `ipcd_startup`. -/
def startup : UkernDaemon → List StartupAct
  | .coserviced => .endpoints :: insertAll .coserviced
  | .nsd =>
    .endpoints :: (coacceptEndpoints .nsd).map (fun e => .reserve e.1) ++
      [.await .coprovide, .await .coprovide2, .await .codiscover2] ++
      (coacceptEndpoints .nsd).map fun e => .update e.1
  | .coeventd => .await .coprovide :: .endpoints :: insertAll .coeventd
  | .ipcd => .await .coprovide :: .endpoints :: insertAll .ipcd

namespace Microkernel

/-- One step of a startup. `none` is a daemon that waits, or ends with `err`. -/
def act (m : Microkernel) (d : UkernDaemon) (ncpu : Nat) (started : Nat → Bool) :
    StartupAct → Option Microkernel
  | .endpoints => some (m.initEndpoints d ncpu started)
  | .reserve func => if m.names func = .absent then some (m.setName func .reservation) else none
  | .await func =>
    match m.names func with
    | .coservice _ => some m
    | _            => none
  | .insert func slow =>
    if m.names func = .absent then
      some ((m.provide d slow func).setName func (.coservice m.services.length))
    else none
  | .update func =>
    if m.names func = .reservation then
      some ((m.provide d false func).setName func (.coservice m.services.length))
    else none

/-- The next step of the daemon `d`. -/
def startupStep (ncpu : Nat) (m : Microkernel) (a : UkernDaemon × (Nat → Bool)) :
    Option Microkernel := do
  let next ← (startup a.1)[m.pc a.1]?
  let m' ← m.act a.1 ncpu a.2 next
  some { m' with pc := Function.update m'.pc a.1 (m'.pc a.1 + 1) }

end Microkernel

/-! ### Calls -/

/-- `get_coservice_scb` of a service that nobody interrupts, after `get_service_endpoint`. -/
def Microkernel.getCoserviceScb (m : Microkernel) (s : UkernService) :
    Option (Option WorkerScb × Microkernel) := do
  let service ← m.services[s.handle]?
  let e ← m.endpoints[service.impl]?
  let r ← e.finish 3 .entry
  let scb ← e.getCoserviceScb r.2
  some (scb, { m with endpoints := m.endpoints.set service.impl r.1 })

/-- What others do between the calls of a client. -/
inductive Move
  /-- A daemon goes on with its startup. -/
  | startup (d : UkernDaemon) (started : Nat → Bool)
  /-- Another client looks for a worker of a service. -/
  | discover (s : UkernService)
  /-- Another client provides a service of its own. -/
  | provide (op : Nat) (slowpath : Bool) (scbs : List (Option WorkerScb))

/-- One of these moves. `none` is a move that does not come off. -/
def Microkernel.move (ncpu : Nat) (m : Microkernel) : Move → Option Microkernel
  | .startup d started => m.startupStep ncpu (d, started)
  | .discover s => (m.getCoserviceScb s).map fun r => r.2
  | .provide op slowpath scbs =>
    some { m with
      endpoints := m.endpoints ++ [⟨scbs, scbs.length, 0⟩]
      services := m.services ++ [⟨op, slowpath, m.endpoints.length⟩] }

/-- What happens before a cocall. Then the worker may be busy, or the cocall fails in another way. -/
structure Happening where
  moves : List Move
  failure : Option CallErrno

/-- The microkernel as a client sees it. -/
structure Env where
  ukernel : Microkernel
  time : Nat

/-- The rest of the world: the processors, what happens before each cocall, and the functions that
the model does not look into. `stray` is what comes of a cocall on the path that the worker does not
serve, or without a worker. -/
structure World where
  ncpu : Nat
  happens : Nat → Happening
  answer : Handler → UkernRequest → UkernReply
  stray : TargetedCall → CallOutcome

namespace Microkernel

/-- Others go on. A move that does not come off is skipped. -/
def goOn (ncpu : Nat) (m : Microkernel) : List Move → Microkernel
  | []        => m
  | a :: rest => goOn ncpu ((m.move ncpu a).getD m) rest

def errReply (error : Nat) : UkernReply := ⟨some error, none, none, none, 0⟩

def einval : Nat := 22
def enoent : Nat := 2
def enosys : Nat := 78

/-- The function `h` on a request. The arguments of another request mean nothing to the three
functions below. -/
def serve (w : World) (m : Microkernel) (h : Handler) (r : UkernRequest) :
    CallOutcome × Microkernel :=
  match h, r with
  | .namespaceObjectSelect, .coselect name =>
    match m.names name with
    | .coservice i =>
      match m.services[i]? with
      | some s =>
        (.returned ⟨none, some ⟨name, some ⟨i, s.op, s.slowpath⟩⟩, none, none, 0⟩, m)
      | none => (.returned (errReply enoent), m)
    | _ => (.returned (errReply enoent), m)
  | .discoverCoservice, .codiscover obj =>
    match obj.coservice with
    | some s =>
      match m.getCoserviceScb s with
      | some (scb, m') => (.returned ⟨none, none, some s, scb, 0⟩, m')
      | none           => (.returned (errReply einval), m)
    | none => (.returned (errReply einval), m)
  | .discoverCoservice2, .codiscover2 s =>
    match m.getCoserviceScb s with
    | some (scb, m') => (.returned ⟨none, none, none, scb, 0⟩, m')
    | none           => (.returned (errReply einval), m)
  | h, r => (.returned (w.answer h r), m)

/-- A cocall that gets to a worker. -/
def deliver (w : World) (m : Microkernel) (c : TargetedCall) : CallOutcome × Microkernel :=
  match m.workers c.scb with
  | some (d, slow) =>
    if slow = c.slow then
      match coacceptHandler d slow c.op with
      | some h => m.serve w h c.request
      | none   => (.returned (errReply enosys), m)
    else (w.stray c, m)
  | none => (w.stray c, m)

/-- `cocall` and `cocall_slow`. -/
def cocall (w : World) (env : Env) (c : TargetedCall) : CallOutcome × Env :=
  let happening := w.happens env.time
  let m := env.ukernel.goOn w.ncpu happening.moves
  match happening.failure with
  | some errno => (.failed errno, ⟨m, env.time + 1⟩)
  | none =>
    let (outcome, m') := m.deliver w c
    (outcome, ⟨m', env.time + 1⟩)

end Microkernel

/-! ### A client -/

/-- A process: the tables and `errno` of its threads, and what they share. -/
structure Client where
  targets : Nat → CocallNum → Option WorkerScb
  errno : Nat → CallErrno
  globals : CocallNum → Option WorkerScb
  services : CocallNum → Option UkernService
  env : Env

/-- A process that has not called anything. -/
def newClient (env : Env) : Client where
  targets _ _ := none
  errno _ := .clear
  globals _ := none
  services _ := none
  env := env

/-- What the thread `i` has. -/
def Client.thread (p : Client) (i : Nat) : Thread Env :=
  ⟨p.targets i, p.globals, p.services, p.errno i, p.env⟩

/-- The process after a call of the thread `i`. -/
def Client.put (p : Client) (i : Nat) (t : Thread Env) : Client where
  targets := Function.update p.targets i t.targets
  errno := Function.update p.errno i t.errno
  globals := t.globals
  services := t.services
  env := t.env

/-- `set_ukern_target`, if there is an SCB. -/
def Thread.adoptTarget {ε : Type} (t : Thread ε) (func : CocallNum) (scb : Option WorkerScb) :
    Thread ε :=
  if scb ≠ none then t.setUkernTarget func scb else t

/-- `coproc_init` in the thread `i`. nsd and coserviced have given three SCBs of their workers to
coprocd, of which the one of coserviced is at `k`. -/
def Client.coprocInit (p : Client) (i k : Nat) : Client :=
  let m := p.env.ukernel
  let t := Thread.adoptTarget (p.thread i) .coinsert (m.scbs .nsd false)[2]?.join
  let t := Thread.adoptTarget t .codiscover (m.scbs .coserviced false)[k]?.join
  p.put i (Thread.adoptTarget t .coselect (m.scbs .nsd false)[3]?.join)

/-- What a process does. -/
inductive ClientAct
  | init (i k : Nat)
  | call (i fuel : Nat) (r : UkernRequest)

/-- One act. `none` is a call that does not return. -/
def Client.act (w : World) (p : Client) : ClientAct → Option Client
  | .init i k => some (p.coprocInit i k)
  | .call i fuel r =>
    match ukernCall (Microkernel.cocall w) fuel r (p.thread i) with
    | .done _ t => some (p.put i t)
    | _         => none

/-- Some acts after each other. -/
def Client.acts (w : World) (p : Client) : List ClientAct → Option Client
  | []        => some p
  | a :: rest => (p.act w a).bind fun p' => Client.acts w p' rest

end Comsg.Ukernel
