import Comsg.Nsd.Table

/-!
# `Comsg.Nsd.Handlers`: the requests nsd serves

Each request has a validator and a handler. A request whose validator fails is answered with
`EINVAL`. The functions follow `coinsert.c`, `coselect.c`, `codelete.c`, `coupdate.c`,
`cocreate.c`, `codrop.c` and `nsd_crud.c`. The requests are handled one at a time.

A handler that returns `none` has brought nsd down, by a fault, a failed assertion or `err`. The
counters of the tables are left out, since nothing reads them.
-/

set_option autoImplicit false

namespace Comsg.Nsd

open Comsg.Lib

/-- The arguments of `coinsert`, `coselect`, `codelete` and `coupdate`, as far as each reads
them. -/
structure ObjectArgs where
  nsCap : NsCap
  nsobjName : List UInt8
  nsobj : NsCap
  nsobjType : NsobjectType
  obj : NsCap
  deriving DecidableEq

/-- The arguments of `cocreate` and `codrop`. -/
structure SpaceArgs where
  nsCap : NsCap
  nsName : List UInt8
  nsType : NsType
  deriving DecidableEq

/-- A request. -/
inductive Request
  | coinsert (args : ObjectArgs)
  | coselect (args : ObjectArgs)
  | codelete (args : ObjectArgs)
  | coupdate (args : ObjectArgs)
  | cocreate (args : SpaceArgs)
  | codrop (args : SpaceArgs)
  deriving DecidableEq

/-- The answer: status 0 with the capability in the reply, or an error. -/
inductive Reply
  | ok (cap : NsCap)
  | err (error : Errno)
  deriving DecidableEq

/-- `COCALL_RETURN(cocall_args, 0)` was reached. -/
def Reply.isOk : Reply → Bool
  | .ok _  => true
  | .err _ => false

namespace Tables

/-! ### `coinsert` -/

/-- `validate_nsobjcreate_params`. -/
def validateNsobjcreateParams (s : Tables) (name : List UInt8) (type : NsobjectType)
    (parent : NsCap) : Option Bool := do
  if (← s.validNamespaceCap parent) = false then some false
  else if validNsName name = false then some false
  else if validNsobjType type = false then some false
  else if ¬Meets parent.perms nsPermWr then some false
  else some ((← s.lookupNsobject name type parent).target = none)

/-- `new_nsobject`: `NULL` or the owner's capability to a new object. -/
def newNsobject (s : Tables) (name : List UInt8) (type : NsobjectType) (parent : NsCap) :
    Option (Tables × NsCap) := do
  if (← s.validateNsobjcreateParams name type parent) = false then some (s, .null)
  else
    let (s', i) ← s.allocateNsobject parent ⟨strncpy nsNameLen name, type, .null⟩
    some (s', (nsobjPtr i).andperm nsobjPermsOwnMask)

/-- The store of a handle in an object, through nsd's capability to it. -/
def setObj (s : Tables) (i : Nat) (obj : NsCap) : Tables :=
  { s with nsobjects := s.nsobjects.modify i fun o => { o with obj := obj } }

/-- `validate_coinsert_args`. -/
def validateCoinsertArgs (s : Tables) (args : ObjectArgs) : Option Bool := do
  let _ ← unsealNs args.nsCap
  if (← s.validNamespaceCap args.nsCap) = false then some false
  else if args.obj.target ≠ none then
    if args.obj.perms &&& permGlobal = 1 then some false
    else if lastNsobjType.toInt < args.nsobjType.toInt ∨
        args.nsobjType.toInt ≤ NsobjectType.invalidNsobj.toInt then some false
    else some true
  else some (args.nsobjType = .reservation)

/-- `namespace_object_insert`. -/
def namespaceObjectInsert (s : Tables) (args : ObjectArgs) : Option (Tables × Reply) := do
  if ¬Meets args.nsCap.perms nsPermWr then some (s, .err .eacces)
  else if (← s.inNamespace args.nsobjName args.nsCap) = true then some (s, .err .eexist)
  else
    let (s', obj) ← s.newNsobject args.nsobjName args.nsobjType args.nsCap
    match args.nsobjType with
    | .commap | .coservice | .coport =>
      let (i, _) ← s'.nsobj obj
      some (s'.setObj i args.obj, .ok (obj.clearperm nsobjPermW))
    | .reservation =>
      let (i, _) ← s'.nsobj obj
      some (s'.setObj i .null, .ok (← s'.sealNsobj obj))
    | _ => some (s', .ok obj)

/-! ### `coselect` -/

/-- `validate_coselect_args`. -/
def validateCoselectArgs (s : Tables) (args : ObjectArgs) : Option Bool := do
  if (← s.validNamespaceCap args.nsCap) = false then some false
  else if validNsName args.nsobjName = false then some false
  else some (validNsobjType args.nsobjType)

/-- `namespace_object_select`. -/
def namespaceObjectSelect (s : Tables) (args : ObjectArgs) : Option (Tables × Reply) := do
  let obj ← s.lookupNsobject args.nsobjName args.nsobjType args.nsCap
  if obj.target = none then some (s, .err .enoent)
  else
    let (_, o) ← s.nsobj obj
    if o.obj.tag = false ∧ args.nsobjType ≠ .reservation then some (s, .err .enoent)
    else if o.type = .reservation then some (s, .ok (← s.sealNsobj obj))
    else some (s, .ok (obj.clearperm nsobjPermW))

/-! ### `codelete` -/

/-- `validate_codelete_args`. -/
def validateCodeleteArgs (s : Tables) (args : ObjectArgs) : Option Bool := do
  let _ := unsealNsobj args.nsobj
  let _ ← unsealNs args.nsCap
  if (← s.validNamespaceCap args.nsCap) = false then some false
  else s.validNsobjectCap args.nsobj

/-- `delete_nsobject`: the object leaves the list of the namespace, and its entry is wiped. -/
def deleteNsobject (s : Tables) (i : Nat) (c : NsCap) : Option (Tables × Bool) := do
  let (p, space) ← s.openNs c
  if i ∈ space.objects then
    some ({ s with
      namespaces := s.namespaces.modify p fun n => { n with objects := n.objects.erase i }
      nsobjects := s.nsobjects.modify i fun _ => ⟨List.replicate nsNameLen 0, .invalidNsobj, .null⟩
      }, true)
  else some (s, false)

/-- `namespace_object_delete`. -/
def namespaceObjectDelete (s : Tables) (args : ObjectArgs) : Option (Tables × Reply) := do
  if ¬Meets args.nsobj.perms nsobjPermD then some (s, .err .eacces)
  else
    let (i, o) ← s.nsobj (unsealNsobj args.nsobj)
    let parentObj ← s.lookupNsobject o.name o.type args.nsCap
    if parentObj.target = none then some (s, .err .enoent)
    else if parentObj.target ≠ some (.nsobj i) then some (s, .err .eperm)
    else
      let (s', found) ← s.deleteNsobject i args.nsCap
      if found then some (s', .ok .null)
      -- The assertion behind this branch holds, since nobody else works on the tables.
      else some (s', .err .enoent)

/-! ### `coupdate` -/

/-- `validate_coupdate_args`. The mask test rejects the type 0 only. -/
def validateCoupdateArgs (s : Tables) (args : ObjectArgs) : Option Bool := do
  let _ := unsealNsobj args.nsobj
  if (← s.validNsobjectCap args.nsobj) = false then some false
  else if args.nsobj.isSealed = false then some false
  else if args.nsobjType.toInt = 0 then some false
  else if args.obj.isSealed = false then some false
  else some ¬Meets args.obj.perms permGlobal

/-- `namespace_object_update`. It stores the type and the handle through the capability of the
client, for which one of the permissions of `NSOBJ_PERM_W` need not do. -/
def namespaceObjectUpdate (s : Tables) (args : ObjectArgs) : Option (Tables × Reply) := do
  let nsobj := unsealNsobj args.nsobj
  if nsobj.target = none then some (s, .err .enoent)
  else if ¬Meets nsobj.perms nsobjPermW then some (s, .err .eperm)
  else
    let (i, o) ← s.nsobj nsobj
    if o.type ≠ .reservation then some (s, .err .enodev)
    else if ¬nsobj.StoresCap args.obj then none
    else some ({ s with
      nsobjects := s.nsobjects.modify i fun o =>
        { o with type := args.nsobjType, obj := args.obj } },
      .ok (nsobj.clearperm nsobjPermW))

/-! ### `cocreate` -/

/-- `validate_cocreate_args`. -/
def validateCocreateArgs (s : Tables) (args : SpaceArgs) : Option Bool := do
  if (← s.validNamespaceCap args.nsCap) = false then some false
  else if args.nsType = .root ∨ args.nsType = .invalidNs then some false
  else some (validNsName args.nsName)

/-- `validate_nscreate_params` for a namespace with a parent. -/
def validateNscreateParams (s : Tables) (parent : NsCap) (type : NsType) (name : List UInt8) :
    Option Bool := do
  if validNsName name = false then some false
  else if validNsType type = false then some false
  else if (← s.validNamespaceCap parent) = false then some false
  else if ¬Meets parent.perms nsPermWr then some false
  else
    match type with
    | .application | .library =>
      let (p, space) ← s.openNs parent
      -- Entry 0 is the root.
      some (space.type = .root ∧ p = 0)
    | .private_ | .public_ => some true
    -- A second root is refused, since there is a parent.
    | _ => some false

/-- `new_namespace` below a parent: `NULL` or the owner's sealed capability. -/
def newNamespace (s : Tables) (name : List UInt8) (type : NsType) (parent : NsCap) :
    Option (Tables × NsCap) := do
  if (← s.validateNscreateParams parent type name) = false then some (s, .null)
  else
    let parentCap ← s.sealNs ((← unsealNs parent).andperm nsPermsObjMask)
    let (s', i) ← s.allocateNamespace parent ⟨strncpy nsNameLen name, type, parentCap, [], []⟩
    some (s', ← s'.sealNs ((nsPtr i).andperm nsPermsOwnMask))

/-- `namespace_create`. -/
def namespaceCreate (s : Tables) (args : SpaceArgs) : Option (Tables × Reply) := do
  if ¬Meets args.nsCap.perms nsPermWr then some (s, .err .eacces)
  else
    let child ← s.lookupNamespace args.nsName args.nsCap
    if child.target ≠ none then
      let (_, space) ← s.ns child
      if ¬Meets args.nsCap.perms (nsPermWr ||| nsPermRo) then some (s, .err .eacces)
      else if space.type ≠ args.nsType then some (s, .err .eexist)
      else if space.type = .private_ then some (s, .err .eexist)
      else if space.type ≠ .public_ ∧ (← s.getNsType args.nsCap) ≠ .root then
        some (s, .err .eexist)
      else some (s, .ok (← s.sealNs (child.andperm nsPermsWrMask)))
    else
      let (s', childCap) ← s.newNamespace args.nsName args.nsType args.nsCap
      some (s', .ok childCap)

/-! ### `codrop` -/

/-- `validate_codrop_args`. -/
def validateCodropArgs (s : Tables) (args : SpaceArgs) : Option Bool := do
  let _ ← unsealNs args.nsCap
  if (← s.validNamespaceCap args.nsCap) = false then some false
  else some ¬(args.nsType = .root ∨ args.nsType = .invalidNs)

/-- `delete_namespace`, which looks for the namespace among its own children. -/
def deleteNamespace (s : Tables) (c : NsCap) : Option (Tables × Bool) := do
  let (i, space) ← s.openNs c
  let _ ← unsealNs space.parent
  if i ∈ space.namespaces then
    some ({ s with
      namespaces := s.namespaces.modify i fun n =>
        { n with namespaces := n.namespaces.erase i } }, true)
  else some (s, false)

/-- `namespace_drop`. -/
def namespaceDrop (s : Tables) (args : SpaceArgs) : Option (Tables × Reply) := do
  if ¬Meets args.nsCap.perms nsPermsOwn then some (s, .err .eacces)
  else
    let (_, space) ← s.openNs args.nsCap
    if (← s.isChildNamespace space.name space.parent) = false then some (s, .err .enoent)
    else
      let (s', found) ← s.deleteNamespace args.nsCap
      if found then some (s', .ok .null) else some (s', .err .enoent)

/-! ### The daemon -/

/-- The validator of the request, and its handler if that succeeds. -/
def validated (s : Tables) (valid : Option Bool) (handler : Option (Tables × Reply)) :
    Option (Tables × Reply) := do
  if (← valid) = false then some (s, .err .einval) else handler

/-- One request. -/
def handle (s : Tables) : Request → Option (Tables × Reply)
  | .coinsert args => s.validated (s.validateCoinsertArgs args) (s.namespaceObjectInsert args)
  | .coselect args => s.validated (s.validateCoselectArgs args) (s.namespaceObjectSelect args)
  | .codelete args => s.validated (s.validateCodeleteArgs args) (s.namespaceObjectDelete args)
  | .coupdate args => s.validated (s.validateCoupdateArgs args) (s.namespaceObjectUpdate args)
  | .cocreate args => s.validated (s.validateCocreateArgs args) (s.namespaceCreate args)
  | .codrop args   => s.validated (s.validateCodropArgs args) (s.namespaceDrop args)

/-- The tables after a request. -/
def step (s : Tables) (r : Request) : Option Tables := (s.handle r).map Prod.fst

end Tables

/-- The bytes of an ASCII string. -/
def asciiBytes (cs : List Char) : List UInt8 := cs.map fun c => c.toNat.toUInt8

/-- The names under which `init_services` reserves nsd's own services. -/
def serviceNames : List (List UInt8) :=
  [['C', 'O', 'S', 'E', 'L', 'E', 'C', 'T'], ['C', 'O', 'I', 'N', 'S', 'E', 'R', 'T'],
    ['C', 'O', 'U', 'P', 'D', 'A', 'T', 'E'], ['C', 'O', 'D', 'E', 'L', 'E', 'T', 'E'],
    ['C', 'O', 'C', 'R', 'E', 'A', 'T', 'E'], ['C', 'O', 'D', 'R', 'O', 'P']].map asciiBytes

/-- The root namespace, which `main` creates. -/
def rootNamespace : Namespace where
  name := strncpy nsNameLen (asciiBytes ['c', 'o', 'p', 'r', 'o', 'c'])
  type := .root
  parent := .null
  objects := []
  namespaces := []

/-- nsd when it begins to serve: the root namespace holds one object for each of its services. A
service is a reservation before `start_fast_service` has stored its handle, and a coservice
after. The handle is tagged, since `coprovide` has returned it. -/
def initTables (maxNamespaces maxNsobjects : Nat)
    (handles : List UInt8 → Option { handle : NsCap // handle.tag = true }) : Tables where
  namespaces := [{ rootNamespace with objects := (List.range serviceNames.length).reverse }]
  nsobjects := serviceNames.map fun name =>
    match handles name with
    | none        => ⟨strncpy nsNameLen name, .reservation, .null⟩
    | some handle => ⟨strncpy nsNameLen name, .coservice, handle⟩
  maxNamespaces := maxNamespaces
  maxNsobjects := maxNsobjects

end Comsg.Nsd
