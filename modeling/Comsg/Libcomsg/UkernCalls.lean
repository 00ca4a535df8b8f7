import Comsg.Lib.Fuel
import Mathlib.Logic.Function.Basic

/-!
# `Comsg.Libcomsg.UkernCalls`: the calls to the microkernel

A thread calls a function of the microkernel through an SCB that it has found for it. Each thread
has its own table of SCBs, which it fills by need. The SCBs are found by calls to the microkernel
themselves, so the functions below call each other.

* `Thread`: the table of the calling thread, the table of the process, and `ukernel_services`.
* `setUkernTarget`: `set_ukern_target` and `set_cocall_target` (`cocalls.c:102-114`).
* `coselect`, `codiscover`, `codiscover2`, `getUkernelService`, `initNewThreadCalls`,
  `refreshTargetScb`, `callUkernTarget`, `callUkernService`, `ukernCall`: `ukern_calls.c`.

The functions that call `ukern_call` take it as their argument `call`, and `ukernCall` gives them
itself with one unit of fuel less. The loop of `call_ukern_service` uses up fuel in the same way.

`cocall` is the environment: the kernel and the services, with a state of their own. The texts of
error messages, `root_ns` and what else the arguments of a call hold are left out.
-/

set_option autoImplicit false

namespace Comsg.Libcomsg

open Comsg.Lib

/-- `cocall_num_t`, in the order of `ukern_calls.inc`. -/
inductive CocallNum
  | codiscover
  | codiscover2
  | coprovide
  | coprovide2
  | coinsert
  | coselect
  | coupdate
  | codelete
  | cocreate
  | codrop
  | coopen
  | coclose
  | cosend
  | corecv
  | copoll
  | slopoll
  | coportMsgFree
  | coprocInit
  | coprocInitDone
  | ccbInstall
  | ccbRegister
  | colisten
  deriving DecidableEq, Repr

/-- The value of a member, behind `NOTUSED`. -/
def CocallNum.value (func : CocallNum) : Nat := func.ctorIdx + 1

/-- `is_core_call`. -/
def isCoreCall : CocallNum → Bool
  | .codiscover  => true
  | .coselect    => true
  | .codiscover2 => true
  | _            => false

/-- `errno`, where it is looked at. -/
inductive CallErrno
  | clear
  | ebusy
  | eagain
  | enotconn
  | other (value : Nat)
  deriving DecidableEq, Repr

/-- The capability of a worker thread. -/
abbrev WorkerScb := Nat

/-- `coservice_t`. -/
structure UkernService where
  handle : Nat
  op : Nat
  slowpath : Bool
  deriving DecidableEq, Repr

/-- `nsobject_t` of a coservice. -/
structure ServiceObject where
  name : CocallNum
  coservice : Option UkernService
  deriving DecidableEq, Repr

/-- What is asked for. The requests that nobody here looks into are `other`. -/
inductive UkernRequest
  | coselect (name : CocallNum)
  | codiscover (nsobj : ServiceObject)
  | codiscover2 (coservice : UkernService)
  | other (func : CocallNum) (data : Nat) (h : isCoreCall func = false)
  deriving DecidableEq, Repr

/-- The function that serves a request. -/
def UkernRequest.func : UkernRequest → CocallNum
  | .coselect _     => .coselect
  | .codiscover _   => .codiscover
  | .codiscover2 _  => .codiscover2
  | .other func _ _ => func

/-- The arguments after a call. `error` is set when the status is -1. -/
structure UkernReply where
  error : Option Nat
  nsobj : Option ServiceObject
  coservice : Option UkernService
  scbCap : Option WorkerScb
  data : Nat
  deriving DecidableEq, Repr

/-- What a cocall comes to: -1 with `errno`, or 0. -/
inductive CallOutcome
  | failed (errno : CallErrno)
  | returned (reply : UkernReply)
  deriving DecidableEq, Repr

/-- A cocall to a worker. The operation is that of the service, if it is known, and `slocall` is
used if it is slow. -/
structure TargetedCall where
  scb : WorkerScb
  op : Nat
  slow : Bool
  request : UkernRequest
  deriving DecidableEq, Repr

/-- The thread that makes the calls, and the process. -/
structure Thread (ε : Type) where
  targets : CocallNum → Option WorkerScb
  globals : CocallNum → Option WorkerScb
  services : CocallNum → Option UkernService
  errno : CallErrno
  env : ε

/-- `set_ukern_target`. The process takes a target over if it has none. -/
def Thread.setUkernTarget {ε : Type} (t : Thread ε) (func : CocallNum) (scb : Option WorkerScb) :
    Thread ε :=
  { t with
    targets := Function.update t.targets func scb
    globals :=
      if t.globals func = none then Function.update t.globals func scb else t.globals }

/-- The thread takes the target of the process for `CODISCOVER` over, if it has none. -/
def Thread.adoptCodiscover {ε : Type} (t : Thread ε) : Thread ε :=
  if t.targets .codiscover = none then t.setUkernTarget .codiscover (t.globals .codiscover) else t

/-- `should_init_thread`. -/
def Thread.shouldInitThread {ε : Type} (t : Thread ε) : Bool :=
  (decide (t.targets .codiscover = none) || decide (t.targets .coselect = none) ||
    decide (t.targets .codiscover2 = none) || decide (t.services .codiscover = none) ||
    decide (t.services .coselect = none) || decide (t.services .codiscover2 = none)) &&
  (decide (t.globals .codiscover ≠ none) && decide (t.globals .coselect ≠ none))

/-- Calls, in a process with the environment `ε`. `none` is the return value -1. -/
abbrev Ukern (ε : Type) := Fueled (Thread ε)

open Fueled (get modify exit outOfFuel)

section Calls
variable {ε : Type} (cocall : ε → TargetedCall → CallOutcome × ε)
  (call : UkernRequest → Ukern ε (Option UkernReply))

/-- `call_ukern_target`, with `targeted_cocall` and `targeted_slocall`. -/
def callUkernTarget (r : UkernRequest) : Ukern ε (Option UkernReply) := fun t =>
  let service := t.services r.func
  let op := match service with
    | some s => s.op
    | none   => r.func.value
  match t.targets r.func with
  | none => .done none { t with errno := .enotconn }
  | some scb =>
    match cocall t.env ⟨scb, op, service.any UkernService.slowpath, r⟩ with
    | (.failed errno, env)   => .done none { t with errno := errno, env := env }
    | (.returned reply, env) => .done (some reply) { t with errno := .clear, env := env }

/-- `coselect`, for the name of a function. -/
def coselect (name : CocallNum) : Ukern ε (Option ServiceObject) := do
  match ← call (.coselect name) with
  | none => exit
  | some reply =>
    match reply.error with
    | some error => do
      modify fun t => { t with errno := .other error }
      pure none
    | none => pure reply.nsobj

/-- `codiscover`, with the SCB that it stores. -/
def codiscover (nsobj : ServiceObject) : Ukern ε (Option UkernService × Option WorkerScb) := do
  match ← call (.codiscover nsobj) with
  | none => do
    let t ← get
    if t.errno = .eagain then pure (none, none) else exit
  | some reply =>
    match reply.error with
    | some _ => exit
    | none   => pure (reply.coservice, reply.scbCap)

/-- `codiscover2`. -/
def codiscover2 (s : UkernService) : Ukern ε (Option WorkerScb) := do
  match ← call (.codiscover2 s) with
  | none => exit
  | some reply =>
    match reply.error with
    | some _ => exit
    | none   => pure reply.scbCap

/-- `get_ukernel_service`, whose result nobody uses. -/
def getUkernelService (func : CocallNum) : Ukern ε Unit := do
  let t ← get
  match t.services func with
  | none => do
    match ← coselect call func with
    | none => exit
    | some obj => do
      -- The exchange fails when another service has come in between.
      modify fun t =>
        if t.services func = none then
          { t with services := Function.update t.services func obj.coservice }
        else t
      let (tmp, scb) ← codiscover call obj
      if tmp ≠ none ∧ scb ≠ none then modify fun t => t.setUkernTarget func scb
      else pure ()
  | some s =>
    if t.targets .codiscover2 = none then exit
    else do
      let scb ← codiscover2 call s
      if scb ≠ none then modify fun t => t.setUkernTarget func scb
      else pure ()

/-- The part of `init_new_thread_calls` for `CODISCOVER2`. -/
def initCodiscover2 : Ukern ε Unit := do
  let t ← get
  if t.targets .codiscover2 = none then
    if t.globals .codiscover2 = none then
      if t.services .codiscover2 ≠ none then exit else getUkernelService call .codiscover2
    else do
      modify fun t => t.setUkernTarget .codiscover2 (t.globals .codiscover2)
      getUkernelService call .codiscover2
  else pure ()

/-- `init_new_thread_calls`. `CODISCOVER` is taken over twice, and `COSELECT` is not. -/
def initNewThreadCalls : Ukern ε Unit := do
  let t ← get
  if t.globals .codiscover = none ∨ t.globals .coselect = none then exit
  else do
    -- The second of these is meant for `COSELECT`.
    modify Thread.adoptCodiscover
    modify Thread.adoptCodiscover
    initCodiscover2 call
    getUkernelService call .codiscover
    getUkernelService call .coselect

/-- `refresh_target_scb`. -/
def refreshTargetScb (func : CocallNum) : Ukern ε (Option WorkerScb) := do
  let t ← get
  match t.services func with
  | none => do
    getUkernelService call func
    let t ← get
    pure (t.targets func)
  | some s => do
    let scb ← codiscover2 call s
    if scb ≠ none then modify fun t => t.setUkernTarget func scb
    else pure ()
    pure scb

/-- The loop of `call_ukern_service`. `scb` is the replacement that it has found. -/
def callUkernService (r : UkernRequest) : Nat → Option WorkerScb → Ukern ε (Option UkernReply)
  | 0, _ => outOfFuel
  | fuel + 1, scb => do
    match ← callUkernTarget cocall r with
    | some reply => pure (some reply)
    | none => do
      let t ← get
      if t.errno = .ebusy then
        match scb with
        | none => do
          let scb ← refreshTargetScb call r.func
          callUkernService r fuel scb
        | some old => do
          let new ← refreshTargetScb call r.func
          -- A third SCB is never called: the loop ends in both cases.
          if new = some old then do
            modify fun t => { t with errno := .ebusy }
            pure none
          else pure none
      else pure none

/-- The first part of `ukern_call`: the thread gets a target for the function. -/
def prepareTarget (func : CocallNum) : Ukern ε Unit := do
  let t ← get
  if t.targets func = none then
    if t.globals .codiscover = none ∨ t.globals .coselect = none then exit
    else if t.shouldInitThread then do
      initNewThreadCalls call
      getUkernelService call func
    else getUkernelService call func
  else pure ()

/-- `ukern_call`, with the calls that it makes itself as `call`. -/
def ukernCallBody (fuel : Nat) (r : UkernRequest) : Ukern ε (Option UkernReply) := do
  prepareTarget call r.func
  callUkernService cocall call r fuel none

end Calls

/-- `ukern_call`, to a depth of `fuel`. -/
def ukernCall {ε : Type} (cocall : ε → TargetedCall → CallOutcome × ε) :
    Nat → UkernRequest → Ukern ε (Option UkernReply)
  | 0, _        => outOfFuel
  | fuel + 1, r => ukernCallBody cocall (ukernCall cocall fuel) fuel r

end Comsg.Libcomsg
