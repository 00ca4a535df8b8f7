import Comsg.Lib.Mask

/-!
# `Comsg.Coeventd.Coevent`: coevents and their callbacks

A coevent stands for the death of one process, and it queues the callbacks to run then. The word
`in_progress` is its lock: 0 is free, 1 is held, and -1 says that the callbacks have been run.

* The types: `coevent.h`.
* `lockCoevent`, `unlockCoevent`, `addCocallback`, `getNextCocallback`: `coevent_utils.c`. Each
  of them is one atomic step here.

The counters `ncallbacks` and `consumers`, which nothing reads, are in
`Comsg.Coeventd.Counters`.
-/

set_option autoImplicit false

namespace Comsg.Coeventd

open Comsg.Lib

/-- `cocallback_flags_t`. -/
abbrev Flags := BitVec 32

def flagProvider : Flags := BitVec.twoPow 32 0
def flagSlocall : Flags := BitVec.twoPow 32 1
def flagDead : Flags := BitVec.twoPow 32 2

/-- A pointer to a `cocallback_func_t`: an allocation, and the index of the entry in it. -/
structure Ptr where
  base : Nat
  idx : Nat
  deriving DecidableEq, Repr

/-- `struct cocallback_args`. The union is `cocall_data` where a client has filled it in, and
`provided_funcs` in the record that coeventd makes for a provider. -/
inductive CocallbackArgs
  | data (len : Nat) (cocallData : Ptr)
  | provided (funcs : List Ptr)
  deriving DecidableEq, Repr

/-- `cocallback_t`. `serial` tells the allocations apart. -/
structure Cocallback where
  serial : Nat
  func : Ptr
  args : CocallbackArgs
  deriving DecidableEq, Repr

/-- `coevent_t` for the death of a process. The first callback is at the head of the list. -/
structure Coevent where
  cePid : Nat
  inProgress : Int
  callbacks : List Cocallback
  deriving DecidableEq, Repr

/-- Why a call does not return: it spins for the lock, it faults, or an assertion of it fails.
coeventd is gone after the last two. -/
inductive Stop
  | spins
  | faults
  | aborts
  deriving DecidableEq, Repr

namespace Coevent

/-- `lock_coevent`. -/
def lockCoevent (e : Coevent) : Except Stop Coevent :=
  if e.inProgress = 0 then .ok { e with inProgress := 1 } else .error .spins

/-- `unlock_coevent`. -/
def unlockCoevent (e : Coevent) : Except Stop Coevent :=
  if e.inProgress = 0 then .error .aborts else .ok { e with inProgress := 0 }

/-- `add_cocallback`. -/
def addCocallback (e : Coevent) (ccb : Cocallback) : Except Stop Coevent :=
  if e.inProgress = 0 then .error .aborts
  else .ok { e with callbacks := e.callbacks ++ [ccb] }

/-- `get_next_cocallback`: the callback, if it returns one, and the event after it. -/
def getNextCocallback (e : Coevent) : Option Cocallback × Coevent :=
  if e.inProgress ≤ 0 then (none, e)
  else
    match e.callbacks with
    | []          => (none, e)
    | ccb :: rest => (some ccb, { e with callbacks := rest })

end Coevent

end Comsg.Coeventd
