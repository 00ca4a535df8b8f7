import Comsg.Lib.Threads
import Mathlib.Algebra.Group.Nat.Defs
import Mathlib.Logic.Function.Basic

/-!
# `Comsg.Coserviced.Table`: the allocation of coservices and endpoints

coserviced has one table of coservices and one of endpoints, both with `max_services` entries.
Entries are taken in turn and never given back. Any number of threads allocate at the same time.

* `Counters`, `initCounters`: the counters of `coservice_table` and `endpoint_table`, and
  `setup_table` (`coservice_table.c:56-84`).
* `advance`: the atomic steps of `allocate_coservice` and `allocate_endpoint`
  (`coservice_table.c:86-120`). Only the former takes back what it has added to a full table.

The counters are of type `size_t`, and wrap at 2^64.
-/

set_option autoImplicit false

namespace Comsg.Coserviced

open Comsg.Lib

/-- `max_services`. -/
def maxServices : Nat := 256

/-- The two allocators. -/
inductive Allocator
  | coservice
  | endpoint
  deriving DecidableEq, Repr

/-- `next_service` and `active_services`, or `next_endpoint` and `active_endpoints`. -/
structure Counters where
  next : Nat
  active : Nat
  deriving DecidableEq, Repr

/-- The counters of both tables. -/
abbrev Tables := Allocator → Counters

/-- The counters after `setup_table`. -/
def initCounters : Tables := fun _ => ⟨0, 0⟩

/-- Where a call is: before its atomic addition, before the subtraction that takes it back, with
an entry that it has reserved, or returned. -/
inductive AllocPc
  | entry
  | undo
  | reserved (index : Nat)
  | returned (index : Option Nat)
  deriving DecidableEq, Repr

/-- `atomic_fetch_add` and `atomic_fetch_sub` of 1 on a `size_t`. -/
def sizeSucc (x : Nat) : Nat := (x + 1) % 2 ^ 64
def sizePred (x : Nat) : Nat := (x + (2 ^ 64 - 1)) % 2 ^ 64

/-- One atomic step of a call. -/
def Tables.advance (s : Tables) (a : Allocator) : AllocPc → Option (Tables × AllocPc)
  | .entry =>
    let index := (s a).next
    let s' := Function.update s a { s a with next := sizeSucc index }
    if maxServices ≤ index then
      -- Only `allocate_coservice` has the `atomic_fetch_sub`.
      match a with
      | .coservice => some (s', .undo)
      | .endpoint  => some (s', .returned none)
    else some (s', .reserved index)
  | .undo =>
    some (Function.update s a { s a with next := sizePred (s a).next }, .returned none)
  | .reserved index =>
    some (Function.update s a { s a with active := sizeSucc (s a).active }, .returned index)
  | .returned _ => none

/-- One step of any number of calls. -/
def allocStep : Pool Tables Allocator AllocPc → PoolAct Allocator →
    Option (Pool Tables Allocator AllocPc) :=
  poolStep .entry Tables.advance

end Comsg.Coserviced
