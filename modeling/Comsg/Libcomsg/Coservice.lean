import Comsg.Lib.Threads
import Mathlib.Algebra.Group.Int.Defs

/-!
# `Comsg.Libcomsg.Coservice`: the choice of a worker

A coservice is served by several workers, and `get_scb_index` hands them out in turn.

* `Endpoint`: `struct _coservice_endpoint` (`include/comsg/coservice.h`). The capabilities of the
  workers have an arbitrary type.
* `advance`: the atomic steps of `get_scb_index` (`lib/comsg/coservice.c:37-59`). Any number of
  calls run on one endpoint in `scbStep`.
* `getScbIndex`: a call that nobody interrupts.
* `getCoserviceScb`: the load of `get_coservice_scb` (`coservice.c:61-71`).
* `InitService`, `ProvideCoservice`: the endpoints that coserviced sets up
  (`coserviced_setup.c:61-84` and `coprovide.c:83-103`).

`next_worker` is a 32-bit `int`. The atomic addition wraps. So does `idx++` here, which would be
undefined behaviour at `INT_MAX`.
-/

set_option autoImplicit false

namespace Comsg.Libcomsg

open Comsg.Lib

def intMax : Int := 2 ^ 31 - 1
def intMin : Int := -2 ^ 31

/-- The next value of an `int` that wraps. -/
def int32Succ (x : Int) : Int := if x = intMax then intMin else x + 1

/-- `COSERVICE_MAX_WORKERS`. -/
def coserviceMaxWorkers : Nat := 128

/-- `struct _coservice_endpoint`. -/
structure Endpoint (σ : Type) where
  workerScbs : List σ
  nworkers : Int
  nextWorker : Int
  deriving DecidableEq, Repr

/-- Where a call of `get_scb_index` is: before the test of `nworkers`, at the atomic addition, at
the compare-exchange with the value that it has read, or returned. -/
inductive ScbPc
  | entry
  | loop
  | reset (idx : Int)
  | returned (index : Int)
  deriving DecidableEq, Repr

namespace Endpoint

variable {σ : Type}

/-- One atomic step of `get_scb_index`. -/
def advance (e : Endpoint σ) : ScbPc → Option (Endpoint σ × ScbPc)
  | .entry => some (e, if e.nworkers = 1 then .returned 0 else .loop)
  | .loop =>
    let idx := e.nextWorker
    some ({ e with nextWorker := int32Succ idx },
      if e.nworkers ≤ idx then .reset idx else .returned idx)
  | .reset idx =>
    -- The exchange expects the value behind the caller's own addition.
    if e.nextWorker = int32Succ idx then some ({ e with nextWorker := 0 }, .returned 0)
    else some (e, .loop)
  | .returned _ => none

/-- The rest of a call that nobody interrupts, in at most `fuel` steps. -/
def finish : Nat → Endpoint σ → ScbPc → Option (Endpoint σ × Int)
  | _, e, .returned index => some (e, index)
  | 0, _, _               => none
  | fuel + 1, e, pc       => (e.advance pc).bind fun (e', pc') => finish fuel e' pc'

/-- `get_scb_index` when nobody interrupts it: the index, and the endpoint after the call. -/
def GetScbIndex (e : Endpoint σ) (index : Int) (e' : Endpoint σ) : Prop :=
  ∃ fuel, finish fuel e .entry = some (e', index)

/-- Calls of `get_scb_index` one after another, with the indices that they return. -/
inductive Calls : Endpoint σ → List Int → Endpoint σ → Prop
  | nil (e : Endpoint σ) : Calls e [] e
  | cons {e e₁ e' : Endpoint σ} {index : Int} {indices : List Int}
      (h : e.GetScbIndex index e₁) (hrest : Calls e₁ indices e') : Calls e (index :: indices) e'

/-- `s->worker_scbs[index]`, which faults outside of the array. -/
def getCoserviceScb (e : Endpoint σ) (index : Int) : Option σ :=
  if 0 ≤ index then e.workerScbs[index.toNat]? else none

/-- An endpoint of `provide_coservice`, behind `validate_coprovide_args`. -/
structure ProvideCoservice (e : Endpoint σ) : Prop where
  nworkers_pos : 1 ≤ e.nworkers
  nworkers_le : e.nworkers ≤ coserviceMaxWorkers
  length_eq : e.workerScbs.length = e.nworkers
  next_eq : e.nextWorker = 0

/-- The endpoint of coserviced's own services. `get_fast_endpoint_count` workers were started. -/
structure InitService (e : Endpoint σ) : Prop where
  nworkers_pos : 1 ≤ e.nworkers
  nworkers_le : e.nworkers ≤ intMax
  length_eq : e.workerScbs.length = e.nworkers
  next_eq : e.nextWorker = 1

end Endpoint

/-- One step of any number of calls on one endpoint. -/
def scbStep {σ : Type} : Pool (Endpoint σ) Unit ScbPc → PoolAct Unit →
    Option (Pool (Endpoint σ) Unit ScbPc) :=
  poolStep .entry fun e _ pc => e.advance pc

end Comsg.Libcomsg
