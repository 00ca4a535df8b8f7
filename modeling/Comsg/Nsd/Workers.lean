import Comsg.Nsd.Handlers
import Comsg.Lib.Threads

/-!
# `Comsg.Nsd.Workers`: requests on several worker threads

nsd serves each request on a worker thread, and takes no lock. Here `coinsert` and `coupdate` are
cut at their accesses to the tables, so that the accesses of several requests interleave. One
access is one step. A step that faults is not enabled: nsd is gone then.

* `insertAdvance`: `namespace_object_insert`, with `new_nsobject` and `allocate_nsobject` inside
  (`coinsert.c`, `nsd_crud.c`, `namespace_table.c`).
* `updateAdvance`: `namespace_object_update` (`coupdate.c`), and `update_nsobject`
  (`nsd_crud.c`), which nsd itself calls for its own services.
-/

set_option autoImplicit false

namespace Comsg.Nsd

open Comsg.Lib

/-! ### `coinsert` -/

/-- Where a `coinsert` is. -/
inductive InsertPhase
  | arrived
  /-- `validate_coinsert_args` has succeeded. -/
  | validated
  /-- `in_namespace` has not found the name. -/
  | absent
  /-- `validate_nsobjcreate_params` has succeeded. -/
  | checked
  /-- Entry `i` is in the list, and all zero. -/
  | listed (i : Nat)
  /-- It has its type. -/
  | typed (i : Nat)
  /-- `new_nsobject` has returned. -/
  | created (obj : NsCap)
  | replied (reply : Reply)
  deriving DecidableEq

/-- What `memset` leaves. The type 0 is `RESERVATION`. -/
def zeroNsobject : Nsobject := ⟨List.replicate nsNameLen 0, .reservation, .null⟩

namespace Tables

/-- The store of a type. -/
def setType (s : Tables) (i : Nat) (type : NsobjectType) : Tables :=
  { s with nsobjects := s.nsobjects.modify i fun o => { o with type := type } }

/-- The copy of a name. -/
def setName (s : Tables) (i : Nat) (name : List UInt8) : Tables :=
  { s with nsobjects := s.nsobjects.modify i fun o => { o with name := strncpy nsNameLen name } }

/-- The `switch` at the end of `namespace_object_insert`. -/
def storeHandle (s : Tables) (args : ObjectArgs) (obj : NsCap) : Option (Tables × Reply) := do
  match args.nsobjType with
  | .commap | .coservice | .coport =>
    let (i, _) ← s.nsobj obj
    some (s.setObj i args.obj, .ok (obj.clearperm nsobjPermW))
  | .reservation =>
    let (i, _) ← s.nsobj obj
    some (s.setObj i .null, .ok (← s.sealNsobj obj))
  | _ => some (s, .ok obj)

/-- The next step of a `coinsert`. -/
def insertAdvance (s : Tables) (args : ObjectArgs) : InsertPhase → Option (Tables × InsertPhase)
  | .arrived => do
    if (← s.validateCoinsertArgs args) = false then some (s, .replied (.err .einval))
    else some (s, .validated)
  | .validated => do
    if ¬Meets args.nsCap.perms nsPermWr then some (s, .replied (.err .eacces))
    else if (← s.inNamespace args.nsobjName args.nsCap) = true then
      some (s, .replied (.err .eexist))
    else some (s, .absent)
  | .absent => do
    if (← s.validateNsobjcreateParams args.nsobjName args.nsobjType args.nsCap) = false then
      some (s, .created .null)
    else some (s, .checked)
  | .checked => do
    let (s', i) ← s.allocateNsobject args.nsCap zeroNsobject
    some (s', .listed i)
  | .listed i => some (s.setType i args.nsobjType, .typed i)
  | .typed i =>
    some (s.setName i args.nsobjName, .created ((nsobjPtr i).andperm nsobjPermsOwnMask))
  | .created obj => do
    let (s', reply) ← s.storeHandle args obj
    some (s', .replied reply)
  | .replied _ => none

end Tables

/-- The `coinsert` requests on the worker threads. -/
abbrev Inserts := Pool Tables ObjectArgs InsertPhase

/-- One step of a worker thread, or a new request. -/
def insertStep : Inserts → PoolAct ObjectArgs → Option Inserts :=
  poolStep .arrived Tables.insertAdvance

/-! ### `coupdate` and `update_nsobject` -/

/-- An update of a reservation: a request, or a call of `update_nsobject` in nsd. -/
inductive Update
  | coupdate (args : ObjectArgs)
  | updateNsobject (nsobj handle : NsCap) (newType : NsobjectType)
  deriving DecidableEq

/-- Where an update is. -/
inductive UpdatePhase
  | arrived
  /-- `validate_coupdate_args` has succeeded. -/
  | validated
  /-- The type was `RESERVATION`. -/
  | tested
  /-- `coupdate` has stored the type. -/
  | typed
  /-- `update_nsobject` has exchanged the handle. -/
  | exchanged
  | replied (reply : Reply)
  /-- `update_nsobject` has returned 0 or -1. -/
  | returned (success : Bool)
  deriving DecidableEq

namespace Tables

/-- The next step of an update. The stores go through the capability of the caller. -/
def updateAdvance (s : Tables) : Update → UpdatePhase → Option (Tables × UpdatePhase)
  | .coupdate args, .arrived => do
    if (← s.validateCoupdateArgs args) = false then some (s, .replied (.err .einval))
    else some (s, .validated)
  | .coupdate args, .validated => do
    let nsobj := unsealNsobj args.nsobj
    if nsobj.target = none then some (s, .replied (.err .enoent))
    else if ¬Meets nsobj.perms nsobjPermW then some (s, .replied (.err .eperm))
    else
      let (_, o) ← s.nsobj nsobj
      if o.type ≠ .reservation then some (s, .replied (.err .enodev)) else some (s, .tested)
  | .coupdate args, .tested => do
    let nsobj := unsealNsobj args.nsobj
    let (i, _) ← s.nsobj nsobj
    if ¬Meets nsobj.perms permStore then none else some (s.setType i args.nsobjType, .typed)
  | .coupdate args, .typed => do
    let nsobj := unsealNsobj args.nsobj
    let (i, _) ← s.nsobj nsobj
    if ¬nsobj.StoresCap args.obj then none
    else some (s.setObj i args.obj, .replied (.ok (nsobj.clearperm nsobjPermW)))
  | .updateNsobject nsobj _ _, .arrived => do
    let (_, o) ← s.nsobj (unsealNsobj nsobj)
    if o.type ≠ .reservation then some (s, .returned false) else some (s, .tested)
  | .updateNsobject nsobj handle _, .tested => do
    let (i, o) ← s.nsobj (unsealNsobj nsobj)
    if ¬(unsealNsobj nsobj).StoresCap handle then none
    else if o.obj = .null then some (s.setObj i handle, .exchanged)
    else some (s, .returned false)
  | .updateNsobject nsobj _ newType, .exchanged => do
    let (i, _) ← s.nsobj (unsealNsobj nsobj)
    some (s.setType i newType, .returned true)
  | _, _ => none

/-- `update_nsobject`, without interruption: the tables and whether it has returned 0. -/
def updateNsobject (s : Tables) (nsobj handle : NsCap) (newType : NsobjectType) :
    Option (Tables × Bool) := do
  let nsobj := unsealNsobj nsobj
  let (i, o) ← s.nsobj nsobj
  if o.type ≠ .reservation then some (s, false)
  else if ¬nsobj.StoresCap handle then none
  else if o.obj = .null then some ((s.setObj i handle).setType i newType, true)
  else some (s, false)

end Tables

/-- The updates on the worker threads. -/
abbrev Updates := Pool Tables Update UpdatePhase

/-- One step of a worker thread, or a new update. -/
def updateStep : Updates → PoolAct Update → Option Updates :=
  poolStep .arrived Tables.updateAdvance

end Comsg.Nsd
