import Comsg.Lib.Sealing
import Comsg.Include.Namespace

/-!
# `Comsg.Libcomsg.ObjectTypes`: the object types of the daemons and of libcomsg

Each daemon makes its object types when it starts, from the same root capability of the kernel.

* `makeSealcap`, `makeUnsealcap`, `makeOtype`, `makeOtypes`: `utils.c`.
* `setupIpcdOtypes`, `setupCoservicedOtypes` and `setupNsdOtypes`: the constructors of `ipcd_cap.c`,
  `coservice_cap.c` and `nsd_cap.c`.
* `coportIpcUtilsInit`: the one of libcomsg, for clients (`coport_ipc_utils.c:472-503`).
* `NsdOtypes`, `IpcdOtypes`, `unsealEndpoint`: what nsd, ipcd and coserviced do with a seal, on the
  numbers. Their own models are about names for the object types.

`none` stands for an exception, a failed assertion or `err`. The texts of `err` are left out.
-/

set_option autoImplicit false

namespace Comsg.Libcomsg

open Comsg.Lib
open Comsg.Lib.Cheri

/-- `struct object_type`. -/
structure ObjectType where
  sc : Word
  usc : Word
  otype : Int
  deriving DecidableEq

/-- A pointer to an object of one's own. -/
structure OwnPtr where
  cap : Word
  tagged : cap.tag = true
  plain : cap.otype = none
  deriving DecidableEq

/-- `cheri_maketype`, and `make_unsealcap`. They are the same but for a permission. -/
def maketype (rootType : Word) (type : Nat) (mask : Perms) : Option Word := do
  let c ← setbounds (setoffset rootType type) 1
  some (andperm c mask)

/-- `make_sealcap`. -/
def makeSealcap (r : Word) (t : Nat) : Option Word := maketype r t (permGlobal ||| permSeal)

/-- `make_unsealcap`. -/
def makeUnsealcap (rootType : Word) (type : Nat) : Option Word :=
  maketype rootType type (permGlobal ||| permUnseal)

/-- `make_otype`, which seals the pointer to the result to see what type that has. -/
def makeOtype (rootType : Word) (type : Nat) (result : OwnPtr) : Option ObjectType := do
  let sc ← makeSealcap rootType type
  let usc ← makeUnsealcap rootType type
  let c ← cheriSeal result.cap sc
  some { sc, usc, otype := gettype c }

/-- `make_otypes`: the object types, and the rest of the root. -/
def makeOtypes (rootcap : Word) (nOtypes : Nat) (results : List OwnPtr) :
    Option (List ObjectType × Word) := do
  let sealRoot ← setbounds rootcap nOtypes
  if sealRoot.length < nOtypes then none
  else if sealRoot.perms &&& (permSeal ||| permUnseal) ≠ permSeal ||| permUnseal then none
  else
    let sealRoot ← setbounds rootcap nOtypes
    let otypes ← (List.range nOtypes).mapM fun i => do makeOtype sealRoot i (← results[i]?)
    some (otypes, incoffset rootcap nOtypes)

/-! ### The constructors -/

/-- The assertions on the root. -/
def RootOk (minLength : Nat) (root : Word) : Prop :=
  root.tag = true ∧ minLength ≤ root.length ∧ Meets root.perms permSeal

instance (minLength : Nat) (root : Word) : Decidable (RootOk minLength root) :=
  inferInstanceAs (Decidable (_ ∧ _))

/-- The static variables of `ipcd_cap.c`. -/
structure IpcdOtypes where
  copipe : ObjectType
  cochannel : ObjectType
  cocarrier : ObjectType

/-- `setup_ipcd_otypes`. -/
def setupIpcdOtypes (root : Word) (copipe cochannel cocarrier : OwnPtr) : Option IpcdOtypes :=
  if RootOk 1 root then do
    let r ← makeOtypes (incoffset root 32) 3 [copipe, cochannel, cocarrier]
    match r.1 with
    | [copipe, cochannel, cocarrier] => some { copipe, cochannel, cocarrier }
    | _                              => none
  else none

/-- `setup_ipcd_otypes` in `coservice_cap.c`. -/
def setupCoservicedOtypes (root : Word) (coservice : OwnPtr) : Option ObjectType :=
  if RootOk 96 root then do
    let r ← makeOtypes (incoffset root 64) 1 [coservice]
    r.1.head?
  else none

/-- The static variables of `nsd_cap.c`. -/
structure NsdOtypes where
  rootNscap : ObjectType
  appNscap : ObjectType
  privateNscap : ObjectType
  publicNscap : ObjectType
  libraryNscap : ObjectType
  reservationNsobj : ObjectType
  coserviceNsobj : ObjectType
  coportNsobj : ObjectType
  commapNsobj : ObjectType

/-- `setup_otypes`. `globalObjectTypes` are the pointers in the order of the fields. -/
def setupNsdOtypes (root : Word) (globalObjectTypes : List OwnPtr) : Option NsdOtypes := do
  let r ← makeOtypes (incoffset root 96) 9 globalObjectTypes
  match r.1 with
  | [rootNscap, appNscap, privateNscap, publicNscap, libraryNscap, reservationNsobj,
      coserviceNsobj, coportNsobj, commapNsobj] =>
    some { rootNscap, appNscap, privateNscap, publicNscap, libraryNscap, reservationNsobj,
           coserviceNsobj, coportNsobj, commapNsobj }
  | _ => none

/-- The static variables of `coport_ipc_utils.c`. Only the number of `cocarrier_otype` is used. -/
structure ClientOtypes where
  copipe : ObjectType
  cochannel : ObjectType
  cocarrierOtype : Int

/-- `coport_ipc_utils_init`, up to `setup_cinvoke_targets`. -/
def coportIpcUtilsInit (root : Word) (copipe cochannel : OwnPtr) : Option ClientOtypes :=
  if RootOk 1 root then do
    let r ← makeOtypes (incoffset root 32) 2 [copipe, cochannel]
    match r.1 with
    | [copipe, cochannel] =>
      some { copipe := { copipe with usc := copipe.usc.untagged }
             cochannel := { cochannel with usc := cochannel.usc.untagged }
             cocarrierOtype := 0 }
    | _ => none
  else none

/-! ### Tests on the numbers -/

/-- `ns_otype_to_type`. -/
def NsdOtypes.nsOtypeToType (t : NsdOtypes) (otype : Int) : NsType :=
  if otype = t.rootNscap.otype then .root
  else if otype = t.appNscap.otype then .application
  else if otype = t.privateNscap.otype then .private_
  else if otype = t.publicNscap.otype then .public_
  else if otype = t.libraryNscap.otype then .library
  else .invalidNs

/-- `nsobj_otype_to_type`. -/
def NsdOtypes.nsobjOtypeToType (t : NsdOtypes) (otype : Int) : NsobjectType :=
  if otype = t.coportNsobj.otype then .coport
  else if otype = t.coserviceNsobj.otype then .coservice
  else if otype = t.commapNsobj.otype then .commap
  else if otype = t.reservationNsobj.otype then .reservation
  else .invalidNsobj

/-- `get_ns_unsealcap`. -/
def NsdOtypes.getNsUnsealcap (t : NsdOtypes) : NsType → Option Word
  | .root        => some t.rootNscap.usc
  | .application => some t.appNscap.usc
  | .private_    => some t.privateNscap.usc
  | .public_     => some t.publicNscap.usc
  | .library     => some t.libraryNscap.usc
  | _            => none

/-- `get_nsobj_unsealcap`. -/
def NsdOtypes.getNsobjUnsealcap (t : NsdOtypes) : NsobjectType → Option Word
  | .commap      => some t.commapNsobj.usc
  | .coport      => some t.coportNsobj.usc
  | .coservice   => some t.coserviceNsobj.usc
  | .reservation => some t.reservationNsobj.usc
  | _            => none

/-- `unseal_ns`. -/
def NsdOtypes.unsealNs (t : NsdOtypes) (nsCap : Word) : Option Word :=
  if nsCap.otype = none then some nsCap
  else
    let type := t.nsOtypeToType (gettype nsCap)
    if type = .invalidNs then some .null
    else if nsCap.tag = false then none
    else do cheriUnseal nsCap (← t.getNsUnsealcap type)

/-- `unseal_nsobj`. -/
def NsdOtypes.unsealNsobj (t : NsdOtypes) (nsobjCap : Word) : Option Word :=
  if nsobjCap.otype = none then some nsobjCap
  else
    let type := t.nsobjOtypeToType (gettype nsobjCap)
    if type = .invalidNsobj then some .null
    else do cheriUnseal nsobjCap (← t.getNsobjUnsealcap type)

/-- `unseal_coport`. -/
def IpcdOtypes.unsealCoport (t : IpcdOtypes) (ptr : Word) : Option Word :=
  if ptr.otype = none then some ptr
  else if gettype ptr = t.cocarrier.otype then cheriUnseal ptr t.cocarrier.usc
  else if gettype ptr = t.copipe.otype then cheriUnseal ptr t.copipe.usc
  else if gettype ptr = t.cochannel.otype then cheriUnseal ptr t.cochannel.usc
  else none

/-- `is_valid_endpoint`, for the object type `t`. -/
def isValidEndpoint (t : ObjectType) (ep : Word) : Bool :=
  ep.tag && decide (gettype ep = t.otype)

/-- `unseal_endpoint`, for the object type `t`. -/
def unsealEndpoint (t : ObjectType) (ep : Word) : Option Word :=
  if ep.otype = none then some ep
  else if gettype ep ≠ t.otype then some .null
  else cheriUnseal ep t.usc

end Comsg.Libcomsg
