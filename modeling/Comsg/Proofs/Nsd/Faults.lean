import Comsg.Proofs.Nsd.Tree

/-!
# `Comsg.Proofs.Nsd.Faults`: the requests that take nsd down

`TakesDown` lists the requests that end nsd, with the checks they pass before they do:

* `unseal_ns` exits on a capability without a tag that bears one of nsd's seals (`Forged`). The
  validators of `coinsert`, `codelete` and `codrop` call it before they look at the tag.
* Nothing checks that a capability may be loaded through. `valid_namespace_cap` and
  `valid_nsobject_cap` read the type through one that is not sealed, and the handlers read the
  entry.
* `coinsert` does not look at the name, and stores through the `NULL` that `new_nsobject` returns
  for a bad one.
* `codrop` follows the parent of the root, which is `NULL`.
* `coupdate` stores with any one of the permissions of `NSOBJ_PERM_W`.

`handle_isSome_iff` shows that every other request is answered, in every state that nsd
reaches. Each access has a lemma that says when it succeeds, and each request one that collects
them.
-/

set_option autoImplicit false

namespace Comsg.Proofs.Nsd

open Comsg.Lib
open Comsg.Nsd
open Comsg.Nsd.Tables (nsPtr nsobjPtr)

/-- One of nsd's seals for namespaces, on a capability without a tag. -/
def Forged (c : NsCap) : Prop :=
  c.tag = false ∧ ∃ ot, c.otype = some ot ∧ nsOtypeToType ot ≠ .invalidNs

/-- A tagged capability over an entry of the table of namespaces, which is not sealed or has one
of nsd's seals. -/
structure ToSpace (s : Tables) (c : NsCap) : Prop where
  tag : c.tag = true
  size : sizeofNamespace ≤ c.length
  table : s.inNsTable c = true
  known : ∀ ot ∈ c.otype, nsOtypeToType ot ≠ .invalidNs

/-- The same for the table of objects. -/
structure ToObject (s : Tables) (c : NsCap) : Prop where
  tag : c.tag = true
  size : sizeofNsobject ≤ c.length
  table : s.inNsobjectTable c = true
  known : ∀ ot ∈ c.otype, nsobjOtypeToType ot ≠ .invalidNsobj

/-- The capability can be loaded through, and so can the capabilities that it loads. -/
def Readable (c : NsCap) : Prop := Meets c.perms permLoad ∧ Meets c.perms permLoadCap

/-- nsd asks the memory under the capability for the type, and may not load it. -/
def TypeUnreadable (c : NsCap) : Prop := c.otype = none ∧ ¬Meets c.perms permLoad

/-- The object under the capability has the type. -/
def HasType (s : Tables) (c : NsCap) (type : NsobjectType) : Prop :=
  ∃ i o, c.target = some (.nsobj i) ∧ s.nsobjects[i]? = some o ∧ o.type = type

/-- nsd faults on the namespace, at once or behind the other checks of the request. -/
def SpaceFaults (s : Tables) (c : NsCap) (checks : Prop) : Prop :=
  ToSpace s c ∧ (TypeUnreadable c ∨ (checks ∧ ¬Readable c))

/-- The handle and the type of a `coinsert` pass its validator. -/
def HandleChecked (args : ObjectArgs) : Prop :=
  (args.obj.target = none → args.nsobjType = .reservation) ∧
    (args.obj.target ≠ none → args.obj.perms &&& permGlobal ≠ 1 ∧
      NsobjectType.invalidNsobj.toInt < args.nsobjType.toInt ∧
      args.nsobjType.toInt ≤ lastNsobjType.toInt)

/-- What `coinsert` checks besides the capability to the namespace. -/
def InsertChecks (args : ObjectArgs) : Prop :=
  HandleChecked args ∧ Meets args.nsCap.perms nsPermWr

/-- What `coupdate` checks besides the capability to the object. -/
def UpdateChecks (args : ObjectArgs) : Prop :=
  args.nsobj.isSealed = true ∧ args.nsobjType.toInt ≠ 0 ∧ args.obj.isSealed = true ∧
    ¬Meets args.obj.perms permGlobal ∧ Meets args.nsobj.perms nsobjPermW

/-- What `cocreate` checks besides the capability to the namespace. -/
def CreateChecks (args : SpaceArgs) : Prop :=
  args.nsType ≠ .root ∧ args.nsType ≠ .invalidNs ∧ validNsName args.nsName = true ∧
    Meets args.nsCap.perms nsPermWr

/-- What `codrop` checks besides the capability to the namespace. -/
def DropChecks (args : SpaceArgs) : Prop :=
  args.nsType ≠ .root ∧ args.nsType ≠ .invalidNs ∧ Meets args.nsCap.perms nsPermsOwn

/-- The requests that take nsd down. -/
def TakesDown (s : Tables) : Request → Prop
  | .coselect args =>
    SpaceFaults s args.nsCap
      (validNsName args.nsobjName = true ∧ validNsobjType args.nsobjType = true)
  | .coinsert args =>
    Forged args.nsCap ∨ SpaceFaults s args.nsCap (InsertChecks args) ∨
      (ToSpace s args.nsCap ∧ Readable args.nsCap ∧ InsertChecks args ∧
        s.inNamespace args.nsobjName args.nsCap = some false ∧
        validNsobjType args.nsobjType = true ∧ validNsName args.nsobjName = false)
  | .codelete args =>
    Forged args.nsCap ∨ (ToSpace s args.nsCap ∧ (TypeUnreadable args.nsCap ∨
      (ToObject s args.nsobj ∧ (TypeUnreadable args.nsobj ∨
        (¬(args.nsobj.otype = none ∧ HasType s args.nsobj .invalidNsobj) ∧
          Meets args.nsobj.perms nsobjPermD ∧
          (¬Meets args.nsobj.perms permLoad ∨ ¬Readable args.nsCap))))))
  | .coupdate args =>
    ToObject s args.nsobj ∧ (TypeUnreadable args.nsobj ∨
      (UpdateChecks args ∧ (¬Meets args.nsobj.perms permLoad ∨
        (HasType s args.nsobj .reservation ∧ ¬args.nsobj.StoresCap args.obj))))
  | .cocreate args => SpaceFaults s args.nsCap (CreateChecks args)
  | .codrop args =>
    Forged args.nsCap ∨ SpaceFaults s args.nsCap (DropChecks args) ∨
      (ToSpace s args.nsCap ∧ Readable args.nsCap ∧ DropChecks args ∧
        args.nsCap.target = some (.ns 0))

/-! ### The accesses -/

section Access
variable {s : Tables} {c : NsCap} {p i : Nat} {space : Namespace}

/-- `unseal_ns` exits on a forged capability. -/
theorem unsealNs_eq_none : unsealNs c = none ↔ Forged c := by
  unfold unsealNs Forged
  cases hot : c.otype with
  | none => simp
  | some ot =>
    by_cases hinvalid : nsOtypeToType ot = .invalidNs
    · simp [hinvalid]
    · cases htag : c.tag <;> simp [hinvalid]

/-- The entry under the capability. -/
theorem ToSpace.entry (h : ToSpace s c) :
    ∃ i space, c.target = some (.ns i) ∧ s.namespaces[i]? = some space := by
  have htable := h.table
  unfold Tables.inNsTable at htable
  split at htable
  · rename_i i htarget
    have hlt : i < s.namespaces.length := by simpa using htable
    exact ⟨i, s.namespaces[i], htarget, List.getElem?_eq_getElem hlt⟩
  · cases htable

theorem ToObject.entry (h : ToObject s c) :
    ∃ i o, c.target = some (.nsobj i) ∧ s.nsobjects[i]? = some o := by
  have htable := h.table
  unfold Tables.inNsobjectTable at htable
  split at htable
  · rename_i i htarget
    have hlt : i < s.nsobjects.length := by simpa using htable
    exact ⟨i, s.nsobjects[i], htarget, List.getElem?_eq_getElem hlt⟩
  · cases htable

theorem openNs_isSome (h : ToSpace s c) : (s.openNs c).isSome = true ↔ Readable c := by
  obtain ⟨i, space, htarget, hspace⟩ := h.entry
  constructor
  · intro hsome
    obtain ⟨⟨j, space'⟩, hopen⟩ := Option.isSome_iff_exists.mp hsome
    obtain ⟨-, -, hload, hcap, -⟩ := openNs_eq_some.mp hopen
    exact ⟨hload, hcap⟩
  · rintro ⟨hload, hcap⟩
    rw [openNs_eq_some.mpr ⟨h.tag, h.known, hload, hcap, htarget, hspace⟩]
    rfl

/-- `valid_namespace_cap` on a capability to a namespace. -/
theorem validNamespaceCap_toSpace (ht : TreeOk s) (h : ToSpace s c) :
    (TypeUnreadable c → s.validNamespaceCap c = none) ∧
      (¬TypeUnreadable c → s.validNamespaceCap c = some true) := by
  obtain ⟨i, space, htarget, hspace⟩ := h.entry
  have htype : space.type ≠ .invalidNs := by
    intro hinvalid
    have hvalid := (ht.space i space hspace).type
    simp [hinvalid, validNsType] at hvalid
  simp only [Tables.validNamespaceCap, h.tag, h.table, Nat.not_lt.mpr h.size, Bool.true_eq_false,
    if_false, TypeUnreadable, Tables.getNsType]
  cases hot : c.otype with
  | none =>
    constructor
    · rintro ⟨-, hload⟩
      have hnone : s.ns c = none := by
        have hfail : c.load = none := by simp [Cap.load, hload]
        simp [Tables.ns, hfail]
      simp [hnone]
    · intro hload
      have hread : Meets c.perms permLoad := by
        by_contra hno
        exact hload ⟨rfl, hno⟩
      have hns : s.ns c = some (i, space) :=
        ns_eq_some.mpr ⟨Cap.load_eq_some.mpr ⟨h.tag, hot, hread, htarget⟩, hspace⟩
      simp [hns, htype]
  | some ot =>
    have hknown := h.known ot (by simp [hot])
    simp [hknown]

/-- `valid_namespace_cap` on any other capability. -/
theorem validNamespaceCap_other (h : ¬ToSpace s c) : s.validNamespaceCap c = some false := by
  unfold Tables.validNamespaceCap
  split
  · rfl
  · rename_i htag
    split
    · rfl
    · rename_i hsize
      split
      · rfl
      · rename_i htable
        -- What is left is a foreign seal.
        unfold Tables.getNsType
        have hbad : ¬∀ ot ∈ c.otype, nsOtypeToType ot ≠ .invalidNs := fun hknown =>
          h ⟨by simpa using htag, by omega, by simpa using htable, hknown⟩
        cases hot : c.otype with
        | none => simp [hot] at hbad
        | some ot => simpa [hot] using hbad

/-- What `valid_namespace_cap` and `unseal_ns` make of a capability. -/
inductive SpaceCase (s : Tables) (c : NsCap) : Prop
  | other (h : ¬ToSpace s c) (hvalid : s.validNamespaceCap c = some false)
  | unreadable (h : ToSpace s c) (htype : TypeUnreadable c) (hvalid : s.validNamespaceCap c = none)
  | closed (h : ToSpace s c) (htype : ¬TypeUnreadable c) (hread : ¬Readable c)
      (hvalid : s.validNamespaceCap c = some true) (hopen : s.openNs c = none)
  | opened (h : ToSpace s c) (htype : ¬TypeUnreadable c) (hread : Readable c)
      (hvalid : s.validNamespaceCap c = some true) (p : Nat) (space : Namespace)
      (hopen : s.openNs c = some (p, space))

theorem spaceCase (ht : TreeOk s) (c : NsCap) : SpaceCase s c := by
  by_cases h : ToSpace s c
  · by_cases htype : TypeUnreadable c
    · exact .unreadable h htype ((validNamespaceCap_toSpace ht h).1 htype)
    · have hvalid := (validNamespaceCap_toSpace ht h).2 htype
      by_cases hread : Readable c
      · obtain ⟨⟨p, space⟩, hopen⟩ := Option.isSome_iff_exists.mp ((openNs_isSome h).mpr hread)
        exact .opened h htype hread hvalid p space hopen
      · have hopen : s.openNs c = none := by
          rw [← Option.not_isSome_iff_eq_none, openNs_isSome h]
          exact hread
        exact .closed h htype hread hvalid hopen
  · exact .other h (validNamespaceCap_other h)

/-- What `valid_nsobject_cap` makes of a capability. -/
inductive ObjectCase (s : Tables) (c : NsCap) : Prop
  | other (h : ¬ToObject s c) (hvalid : s.validNsobjectCap c = some false)
  | unreadable (h : ToObject s c) (htype : TypeUnreadable c) (hvalid : s.validNsobjectCap c = none)
  | wiped (h : ToObject s c) (htype : ¬TypeUnreadable c) (hot : c.otype = none)
      (hwiped : HasType s c .invalidNsobj) (hvalid : s.validNsobjectCap c = some false)
  | found (h : ToObject s c) (htype : ¬TypeUnreadable c)
      (hkept : ¬(c.otype = none ∧ HasType s c .invalidNsobj))
      (hvalid : s.validNsobjectCap c = some true)

/-- The entry decides the type of its capabilities. -/
theorem hasType_iff {o : Nsobject} {type : NsobjectType} (htarget : c.target = some (.nsobj i))
    (ho : s.nsobjects[i]? = some o) : HasType s c type ↔ o.type = type := by
  constructor
  · rintro ⟨j, o', hj, ho', htype⟩
    obtain rfl : i = j := by simpa [htarget] using hj
    obtain rfl : o = o' := Option.some.inj (ho.symm.trans ho')
    exact htype
  · intro htype
    exact ⟨i, o, htarget, ho, htype⟩

theorem objectCase (s : Tables) (c : NsCap) : ObjectCase s c := by
  by_cases h : ToObject s c
  · obtain ⟨i, o, htarget, ho⟩ := h.entry
    have hcheck : s.validNsobjectCap c =
        (s.getNsobjectType c).map fun type => decide (type ≠ .invalidNsobj) := by
      simp [Tables.validNsobjectCap, h.tag, h.table, Nat.not_lt.mpr h.size]
    cases hot : c.otype with
    | none =>
      by_cases hload : Meets c.perms permLoad
      · have hobj : s.nsobj c = some (i, o) :=
          nsobj_eq_some.mpr ⟨Cap.load_eq_some.mpr ⟨h.tag, hot, hload, htarget⟩, ho⟩
        have hreads : ¬TypeUnreadable c := fun hun => hun.2 hload
        by_cases hwiped : o.type = .invalidNsobj
        · exact .wiped h hreads hot ((hasType_iff htarget ho).mpr hwiped)
            (by simp [hcheck, Tables.getNsobjectType, hot, hobj, hwiped])
        · exact .found h hreads (fun hno => hwiped ((hasType_iff htarget ho).mp hno.2))
            (by simp [hcheck, Tables.getNsobjectType, hot, hobj, hwiped])
      · have hobj : s.nsobj c = none := by
          have hfail : c.load = none := by simp [Cap.load, hload]
          simp [Tables.nsobj, hfail]
        exact .unreadable h ⟨hot, hload⟩ (by simp [hcheck, Tables.getNsobjectType, hot, hobj])
    | some ot =>
      have hknown := h.known ot (by simp [hot])
      exact .found h (by simp [TypeUnreadable, hot]) (by simp [hot])
        (by simp [hcheck, Tables.getNsobjectType, hot, hknown])
  · refine .other h ?_
    unfold Tables.validNsobjectCap
    split
    · rfl
    · rename_i htag
      split
      · rfl
      · rename_i hsize
        split
        · rfl
        · rename_i htable
          have hbad : ¬∀ ot ∈ c.otype, nsobjOtypeToType ot ≠ .invalidNsobj := fun hknown =>
            h ⟨by simpa using htag, by omega, by simpa using htable, hknown⟩
          unfold Tables.getNsobjectType
          cases hot : c.otype with
          | none => simp [hot] at hbad
          | some ot => simpa [hot] using hbad

/-- The object under `unseal_nsobj` of a capability that is to one. -/
theorem nsobj_unsealNsobj (h : ToObject s c) {o : Nsobject} (htarget : c.target = some (.nsobj i))
    (ho : s.nsobjects[i]? = some o) :
    s.nsobj (unsealNsobj c) = if Meets c.perms permLoad then some (i, o) else none := by
  rw [unsealNsobj_eq h.known]
  by_cases hload : Meets c.perms permLoad
  · rw [if_pos hload]
    exact nsobj_eq_some.mpr ⟨Cap.load_eq_some.mpr ⟨h.tag, rfl, hload, htarget⟩, ho⟩
  · have hfail : c.unsealed.load = none := by simp [Cap.load, Cap.unsealed, hload]
    simp [Tables.nsobj, hfail, hload]

end Access

/-! ### The requests -/

section Requests
variable {s : Tables} {p : Nat} {space : Namespace}

/-- A request is answered when its validator and its handler return. -/
theorem validated_isSome {valid : Option Bool} {handler : Option (Tables × Reply)}
    (hvalid : valid.isSome = true) (hhandler : handler.isSome = true) :
    (s.validated valid handler).isSome = true := by
  obtain ⟨ok, rfl⟩ := Option.isSome_iff_exists.mp hvalid
  cases ok with
  | false => rfl
  | true => exact hhandler

theorem coselect_isSome (ht : TreeOk s) (args : ObjectArgs) :
    (s.handle (.coselect args)).isSome = true ↔ ¬TakesDown s (.coselect args) := by
  simp only [TakesDown, SpaceFaults]
  cases spaceCase ht args.nsCap with
  | other h hvalid =>
    simp [h, Tables.handle, Tables.validated, Tables.validateCoselectArgs, hvalid]
  | unreadable h htype hvalid =>
    simp [h, htype, Tables.handle, Tables.validated, Tables.validateCoselectArgs, hvalid]
  | closed h htype hread hvalid hopen =>
    cases hname : validNsName args.nsobjName <;> cases htype' : validNsobjType args.nsobjType <;>
      simp [h, htype, hread, Tables.handle, Tables.validated, Tables.validateCoselectArgs, hvalid,
        hname, htype', Tables.namespaceObjectSelect, Tables.lookupNsobject, hopen]
  | opened h htype hread hvalid p space hopen =>
    rw [handle_coselect (.of_openNs hvalid hopen)]
    simp [htype, hread]

/-- nsd can seal its capability to a namespace with a type. -/
theorem sealNs_isSome {c : NsCap} (h : s.ns c = some (p, space))
    (htype : validNsType space.type = true) : (s.sealNs c).isSome = true := by
  simp only [Tables.sealNs, h, Option.bind_eq_bind, Option.bind_some]
  cases hspace : space.type <;> simp_all [validNsType, getNsSealcap]

/-- nsd reads a namespace through its own capability, under a mask that leaves the load
permission. -/
theorem ns_nsPtr_andperm {mask : Perms} (hmask : Meets (dataPerms &&& mask) permLoad)
    (hp : s.namespaces[p]? = some space) :
    s.ns ((nsPtr p).andperm mask) = some (p, space) :=
  ns_eq_some.mpr ⟨Cap.load_eq_some.mpr ⟨rfl, rfl, hmask, rfl⟩, hp⟩

theorem validateNscreateParams_isSome {c : NsCap} {type : NsType} {name : List UInt8}
    (hvalid : s.validNamespaceCap c = some true) (hopen : s.openNs c = some (p, space)) :
    (s.validateNscreateParams c type name).isSome = true := by
  simp only [Tables.validateNscreateParams, hvalid, hopen, Option.bind_eq_bind, Option.bind_some]
  split
  · rfl
  · split
    · rfl
    · split
      · rfl
      · split
        · rfl
        · cases type <;> rfl

/-- `new_namespace` returns, below a namespace that it can open. -/
theorem newNamespace_isSome {c : NsCap} {type : NsType} {name : List UInt8} (ht : TreeOk s)
    (hroom : s.namespaces.length < s.maxNamespaces) (hvalid : s.validNamespaceCap c = some true)
    (hopen : s.openNs c = some (p, space)) : (s.newNamespace name type c).isSome = true := by
  obtain ⟨htag, hseal, hload, hcap, htarget, hp⟩ := openNs_eq_some.mp hopen
  have hanswer : (s.validateNscreateParams c type name).isSome = true :=
    validateNscreateParams_isSome hvalid hopen
  obtain ⟨valid, hparams⟩ := Option.isSome_iff_exists.mp hanswer
  simp only [Tables.newNamespace, hparams, Option.bind_eq_bind, Option.bind_some]
  cases valid with
  | false => rfl
  | true =>
    obtain ⟨htype, -, -⟩ := validateNscreateParams_true hopen hparams
    have hns : s.ns (c.unsealed.andperm nsPermsObjMask) = some (p, space) :=
      ns_eq_some.mpr ⟨Cap.load_eq_some.mpr
        ⟨htag, rfl, (meets_and_iff (by decide)).mpr hload, htarget⟩, hp⟩
    obtain ⟨parent, hparent⟩ := Option.isSome_iff_exists.mp
      (sealNs_isSome hns (ht.space p space hp).type)
    -- The new entry is the last one, and nsd reads its type to seal the capability.
    have hlast : (addNamespace s p ⟨strncpy nsNameLen name, type, parent, [], []⟩).namespaces[
        s.namespaces.length]? = some ⟨strncpy nsNameLen name, type, parent, [], []⟩ :=
      addNamespace_namespaces.mpr (.inl ⟨rfl, rfl⟩)
    have hsealed := sealNs_isSome
      (ns_nsPtr_andperm (show Meets (dataPerms &&& nsPermsOwnMask) permLoad by decide) hlast) htype
    simpa [unsealNs_eq htag hseal, hparent, Tables.allocateNamespace, hopen,
      Nat.not_le.mpr hroom, addNamespace, Option.isSome_bind] using hsealed

/-- `cocreate` returns, below a namespace that it can open. -/
theorem namespaceCreate_isSome {args : SpaceArgs} (hok : TablesOk s) (ht : TreeOk s)
    (hroom : s.namespaces.length < s.maxNamespaces)
    (hvalid : s.validNamespaceCap args.nsCap = some true)
    (hopen : s.openNs args.nsCap = some (p, space)) :
    (s.namespaceCreate args).isSome = true := by
  obtain ⟨-, hp⟩ := openNs_target hopen
  simp only [Tables.namespaceCreate]
  split
  · rfl
  · simp only [Tables.lookupNamespace, hopen, Option.bind_eq_bind, Option.bind_some]
    cases hfind : space.namespaces.find? (s.namespaceNamed args.nsName) with
    | none =>
      simp only [Option.bind_some, Cap.null, ne_eq, not_true_eq_false, if_false]
      obtain ⟨⟨s', cap⟩, hnew⟩ := Option.isSome_iff_exists.mp
        (newNamespace_isSome ht hroom hvalid hopen)
      rw [hnew]
      rfl
    | some i =>
      have hlt := (hok.child p space i hp (List.mem_of_find?_eq_some hfind)).2
      have hi : s.namespaces[i]? = some s.namespaces[i] := List.getElem?_eq_getElem hlt
      have hns : s.ns (nsPtr i) = some (i, s.namespaces[i]) :=
        ns_eq_some.mpr ⟨Cap.load_eq_some.mpr
          ⟨rfl, rfl, show Meets dataPerms permLoad by decide, rfl⟩, hi⟩
      have hsealed := sealNs_isSome
        (ns_nsPtr_andperm (show Meets (dataPerms &&& nsPermsWrMask) permLoad by decide) hi)
        (ht.space i _ hi).type
      obtain ⟨cap, hcap⟩ := Option.isSome_iff_exists.mp hsealed
      obtain ⟨-, -, type, htype, -⟩ := validNamespaceCap_true hvalid
      have htarget : (nsPtr i).target ≠ none := by simp [nsPtr]
      simp only [Option.bind_some, if_pos htarget, hns, htype, hcap]
      split
      · rfl
      · split
        · rfl
        · split
          · rfl
          · split <;> rfl

theorem cocreate_isSome (hok : TablesOk s) (ht : TreeOk s)
    (hroom : s.namespaces.length < s.maxNamespaces) (args : SpaceArgs) :
    (s.handle (.cocreate args)).isSome = true ↔ ¬TakesDown s (.cocreate args) := by
  simp only [TakesDown, SpaceFaults, CreateChecks]
  cases spaceCase ht args.nsCap with
  | other h hvalid =>
    simp [h, Tables.handle, Tables.validated, Tables.validateCocreateArgs, hvalid]
  | unreadable h htype hvalid =>
    simp [h, htype, Tables.handle, Tables.validated, Tables.validateCocreateArgs, hvalid]
  | closed h htype hread hvalid hopen =>
    by_cases hkind : args.nsType = .root ∨ args.nsType = .invalidNs
    · simp [h, htype, Tables.handle, Tables.validated, Tables.validateCocreateArgs, hvalid, hkind]
      tauto
    · obtain ⟨hroot, hinvalid⟩ := not_or.mp hkind
      cases hname : validNsName args.nsName <;> by_cases hwr : Meets args.nsCap.perms nsPermWr <;>
        simp [h, htype, hread, Tables.handle, Tables.validated, Tables.validateCocreateArgs, hvalid,
          hroot, hinvalid, hname, Tables.namespaceCreate, hwr, Tables.lookupNamespace, hopen]
  | opened h htype hread hvalid p space hopen =>
    have hcreate := namespaceCreate_isSome hok ht hroom hvalid hopen
    have hanswer : (s.validateCocreateArgs args).isSome = true := by
      simp only [Tables.validateCocreateArgs, hvalid, Option.bind_eq_bind, Option.bind_some]
      split
      · rfl
      · split <;> rfl
    simp [htype, hread, Tables.handle, validated_isSome hanswer hcreate]

theorem openNs_null : s.openNs .null = none := by
  have hperms : ¬Meets (Cap.null : NsCap).perms permLoadCap := by decide
  simp [Tables.openNs, unsealNs, Cap.null] at hperms ⊢
  simp [hperms]

/-- `codrop` of a namespace that it can open returns, except for the root. -/
theorem namespaceDrop_isSome {args : SpaceArgs} (ht : TreeOk s)
    (hopen : s.openNs args.nsCap = some (p, space)) (hown : Meets args.nsCap.perms nsPermsOwn) :
    (s.namespaceDrop args).isSome = true ↔ p ≠ 0 := by
  obtain ⟨-, hp⟩ := openNs_target hopen
  have hspace := ht.space p space hp
  simp only [Tables.namespaceDrop, hown, not_true_eq_false, if_false, hopen, Option.bind_eq_bind,
    Option.bind_some, Tables.isChildNamespace]
  by_cases hroot : p = 0
  · simp [hspace.orphan hroot, openNs_null, hroot]
  · obtain ⟨q, above, habove, -, -⟩ := hspace.parent hroot
    obtain ⟨htag, hseal, -⟩ := openNs_eq_some.mp habove
    simp only [habove, Option.bind_some, ne_eq, hroot, not_false_eq_true, iff_true]
    split
    · rfl
    · simp only [Tables.deleteNamespace, hopen, unsealNs_eq htag hseal, Option.bind_eq_bind,
        Option.bind_some]
      split <;> rfl

theorem codrop_isSome (ht : TreeOk s) (args : SpaceArgs) :
    (s.handle (.codrop args)).isSome = true ↔ ¬TakesDown s (.codrop args) := by
  simp only [TakesDown, SpaceFaults, DropChecks]
  by_cases hforged : Forged args.nsCap
  · simp [hforged, Tables.handle, Tables.validated, Tables.validateCodropArgs,
      unsealNs_eq_none.mpr hforged]
  · obtain ⟨c, hunseal⟩ := Option.ne_none_iff_exists'.mp (mt unsealNs_eq_none.mp hforged)
    cases spaceCase ht args.nsCap with
    | other h hvalid =>
      simp [hforged, h, Tables.handle, Tables.validated, Tables.validateCodropArgs, hunseal, hvalid]
    | unreadable h htype hvalid =>
      simp [h, htype, Tables.handle, Tables.validated, Tables.validateCodropArgs, hunseal, hvalid]
    | closed h htype hread hvalid hopen =>
      by_cases hkind : args.nsType = .root ∨ args.nsType = .invalidNs
      · simp [hforged, h, htype, hread, Tables.handle, Tables.validated, Tables.validateCodropArgs,
          hunseal, hvalid, hkind]
        tauto
      · obtain ⟨hroot, hinvalid⟩ := not_or.mp hkind
        by_cases hown : Meets args.nsCap.perms nsPermsOwn <;>
          simp [hforged, h, htype, hread, Tables.handle, Tables.validated,
            Tables.validateCodropArgs, hunseal, hvalid, hroot, hinvalid, Tables.namespaceDrop, hown,
            hopen]
    | opened h htype hread hvalid p space hopen =>
      obtain ⟨htarget, -⟩ := openNs_target hopen
      by_cases hkind : args.nsType = .root ∨ args.nsType = .invalidNs
      · simp [hforged, htype, hread, Tables.handle, Tables.validated, Tables.validateCodropArgs,
          hunseal, hvalid, hkind]
        tauto
      · obtain ⟨hroot, hinvalid⟩ := not_or.mp hkind
        by_cases hown : Meets args.nsCap.perms nsPermsOwn
        · have hdrop := namespaceDrop_isSome ht hopen hown
          simpa [hforged, h, htype, hread, Tables.handle, Tables.validated,
            Tables.validateCodropArgs, hunseal, hvalid, hroot, hinvalid, hown, htarget] using hdrop
        · simp [hforged, hread, htype, Tables.handle, Tables.validated, Tables.validateCodropArgs,
            hunseal, hvalid, hroot, hinvalid, hown, Tables.namespaceDrop]

/-- `validate_coinsert_args` behind `valid_namespace_cap`. -/
theorem validateCoinsertArgs_eq {args : ObjectArgs} {c : NsCap}
    (hunseal : unsealNs args.nsCap = some c) (hvalid : s.validNamespaceCap args.nsCap = some true) :
    (HandleChecked args ∧ s.validateCoinsertArgs args = some true) ∨
      (¬HandleChecked args ∧ s.validateCoinsertArgs args = some false) := by
  simp only [Tables.validateCoinsertArgs, hunseal, hvalid, Option.bind_eq_bind, Option.bind_some]
  by_cases hnull : args.obj.target = none
  · by_cases hres : args.nsobjType = .reservation <;> simp [HandleChecked, hnull, hres]
  · by_cases hglobal : args.obj.perms &&& permGlobal = 1
    · simp [HandleChecked, hnull, hglobal]
    · by_cases hrange : lastNsobjType.toInt < args.nsobjType.toInt ∨
          args.nsobjType.toInt ≤ NsobjectType.invalidNsobj.toInt
      · have hno : ¬HandleChecked args := by
          intro h
          have := h.2 hnull
          omega
        exact .inr ⟨hno, by simp [hnull, hrange]⟩
      · have hargs : HandleChecked args :=
          ⟨fun h => absurd h hnull, fun _ => ⟨hglobal, by omega, by omega⟩⟩
        refine .inl ⟨hargs, ?_⟩
        rw [if_neg (by simp), if_pos hnull, if_neg hglobal, if_neg hrange]

/-- `new_nsobject` in a namespace that it can open, for a name that is not taken. -/
theorem newNsobject_eq {name : List UInt8} {type : NsobjectType} {c : NsCap}
    (hroom : s.nsobjects.length < s.maxNsobjects) (hvalid : s.validNamespaceCap c = some true)
    (hopen : s.openNs c = some (p, space)) (hwr : Meets c.perms nsPermWr)
    (habsent : s.inNamespace name c = some false) :
    s.newNsobject name type c =
      if validNsName name = true ∧ validNsobjType type = true then
        some (addObject s p ⟨strncpy nsNameLen name, type, .null⟩,
          (nsobjPtr s.nsobjects.length).andperm nsobjPermsOwnMask)
      else some (s, .null) := by
  simp only [Tables.inNamespace, hopen, Option.bind_eq_bind, Option.bind_some, Option.some.injEq,
    Bool.or_eq_false_iff, List.any_eq_false] at habsent
  have hlookup : s.lookupNsobject name type c = some .null := by
    have hfind : space.objects.find? (s.objectNamed name) = none :=
      List.find?_eq_none.mpr habsent.1
    simp [Tables.lookupNsobject, hopen, hfind]
  cases hname : validNsName name with
  | false => simp [Tables.newNsobject, Tables.validateNsobjcreateParams, hvalid, hname]
  | true =>
    cases htype : validNsobjType type with
    | false => simp [Tables.newNsobject, Tables.validateNsobjcreateParams, hvalid, hname, htype]
    | true =>
      simp [Tables.newNsobject, Tables.validateNsobjcreateParams, hvalid, hname, htype, hwr,
        hlookup, Cap.null, Tables.allocateNsobject, Nat.not_le.mpr hroom, hopen, addObject]

/-- `coinsert` into a namespace that it can open returns, unless the name is bad. -/
theorem namespaceObjectInsert_isSome {args : ObjectArgs}
    (hroom : s.nsobjects.length < s.maxNsobjects)
    (hvalid : s.validNamespaceCap args.nsCap = some true)
    (hopen : s.openNs args.nsCap = some (p, space)) (hwr : Meets args.nsCap.perms nsPermWr) :
    (s.namespaceObjectInsert args).isSome = true ↔
      ¬(s.inNamespace args.nsobjName args.nsCap = some false ∧
        validNsobjType args.nsobjType = true ∧ validNsName args.nsobjName = false) := by
  obtain ⟨present, hpresent⟩ : ∃ present, s.inNamespace args.nsobjName args.nsCap =
      some present := by
    simp only [Tables.inNamespace, hopen, Option.bind_eq_bind, Option.bind_some]
    exact ⟨_, rfl⟩
  simp only [Tables.namespaceObjectInsert, hwr, not_true_eq_false, if_false, hpresent,
    Option.bind_eq_bind, Option.bind_some]
  cases present with
  | true => simp
  | false =>
    simp only [newNsobject_eq hroom hvalid hopen hwr hpresent, Bool.false_eq_true, if_false,
      true_and]
    cases hname : validNsName args.nsobjName with
    | false => cases htype : args.nsobjType <;> simp [validNsobjType, nsobj_null]
    | true =>
      have hread (o : Nsobject) := nsobj_addObject (s := s) (p := p) (o := o)
      cases htype : args.nsobjType with
      | commap | coservice | coport => simp [validNsobjType, hread]
      | reservation =>
        have hseal := sealNsobj_reservation
          (hread ⟨strncpy nsNameLen args.nsobjName, .reservation, .null⟩) rfl
        simp [validNsobjType, hread, hseal]
      | invalidNsobj | other v hv => simp [validNsobjType]

theorem coinsert_isSome (ht : TreeOk s) (hroom : s.nsobjects.length < s.maxNsobjects)
    (args : ObjectArgs) :
    (s.handle (.coinsert args)).isSome = true ↔ ¬TakesDown s (.coinsert args) := by
  simp only [TakesDown, SpaceFaults, InsertChecks]
  by_cases hforged : Forged args.nsCap
  · simp [hforged, Tables.handle, Tables.validated, Tables.validateCoinsertArgs,
      unsealNs_eq_none.mpr hforged]
  · obtain ⟨c, hunseal⟩ := Option.ne_none_iff_exists'.mp (mt unsealNs_eq_none.mp hforged)
    cases spaceCase ht args.nsCap with
    | other h hvalid =>
      simp [hforged, h, Tables.handle, Tables.validated, Tables.validateCoinsertArgs, hunseal,
        hvalid]
    | unreadable h htype hvalid =>
      simp [h, htype, Tables.handle, Tables.validated, Tables.validateCoinsertArgs, hunseal, hvalid]
    | closed h htype hread hvalid hopen =>
      rcases validateCoinsertArgs_eq hunseal hvalid with ⟨hargs, haccept⟩ | ⟨hargs, hreject⟩
      · by_cases hwr : Meets args.nsCap.perms nsPermWr <;>
          simp [hforged, h, htype, hread, hargs, Tables.handle, Tables.validated, haccept,
            Tables.namespaceObjectInsert, hwr, Tables.inNamespace, hopen]
      · simp [hforged, htype, hread, hargs, Tables.handle, Tables.validated, hreject]
    | opened h htype hread hvalid p space hopen =>
      rcases validateCoinsertArgs_eq hunseal hvalid with ⟨hargs, haccept⟩ | ⟨hargs, hreject⟩
      · by_cases hwr : Meets args.nsCap.perms nsPermWr
        · have hinsert := namespaceObjectInsert_isSome hroom hvalid hopen hwr
          simpa [hforged, h, htype, hread, hargs, hwr, Tables.handle, Tables.validated, haccept]
            using hinsert
        · simp [hforged, htype, hread, hwr, Tables.handle, Tables.validated, haccept,
            Tables.namespaceObjectInsert]
      · simp [hforged, htype, hread, hargs, Tables.handle, Tables.validated, hreject]

theorem lookupNsobject_isSome {name : List UInt8} {type : NsobjectType} {c : NsCap}
    (hok : TablesOk s) (hopen : s.openNs c = some (p, space)) :
    (s.lookupNsobject name type c).isSome = true := by
  simp only [Tables.lookupNsobject, hopen, Option.bind_eq_bind, Option.bind_some]
  cases hfind : space.objects.find? (s.objectNamed name) with
  | none => rfl
  | some i =>
    have hlt := hok.listed p space i (openNs_target hopen).2 (List.mem_of_find?_eq_some hfind)
    simp only [List.getElem?_eq_getElem hlt, Option.bind_some]
    split
    · rfl
    · split <;> rfl

/-- `codelete` returns when it can read the object and open the namespace. -/
theorem namespaceObjectDelete_isSome {args : ObjectArgs} (hok : TablesOk s)
    (h : ToSpace s args.nsCap) (hobj : ToObject s args.nsobj)
    (hdelete : Meets args.nsobj.perms nsobjPermD) :
    (s.namespaceObjectDelete args).isSome = true ↔
      Meets args.nsobj.perms permLoad ∧ Readable args.nsCap := by
  obtain ⟨i, o, htarget, ho⟩ := hobj.entry
  simp only [Tables.namespaceObjectDelete, hdelete, not_true_eq_false, if_false,
    nsobj_unsealNsobj hobj htarget ho, Option.bind_eq_bind]
  by_cases hload : Meets args.nsobj.perms permLoad
  · simp only [hload, if_true, Option.bind_some, true_and, ← openNs_isSome h]
    cases hopen : s.openNs args.nsCap with
    | none => simp [Tables.lookupNsobject, hopen]
    | some q =>
      obtain ⟨p, space⟩ := q
      have hfound : (s.lookupNsobject o.name o.type args.nsCap).isSome = true :=
        lookupNsobject_isSome hok hopen
      obtain ⟨parentObj, hlookup⟩ := Option.isSome_iff_exists.mp hfound
      simp only [hlookup, Option.bind_some, Option.isSome_some, iff_true]
      split
      · rfl
      · split
        · rfl
        · simp only [Tables.deleteNsobject, hopen, Option.bind_eq_bind, Option.bind_some]
          split <;> rfl
  · simp [hload]

theorem codelete_isSome (hok : TablesOk s) (ht : TreeOk s) (args : ObjectArgs) :
    (s.handle (.codelete args)).isSome = true ↔ ¬TakesDown s (.codelete args) := by
  simp only [TakesDown]
  by_cases hforged : Forged args.nsCap
  · simp [hforged, Tables.handle, Tables.validated, Tables.validateCodeleteArgs,
      unsealNs_eq_none.mpr hforged]
  · obtain ⟨c, hunseal⟩ := Option.ne_none_iff_exists'.mp (mt unsealNs_eq_none.mp hforged)
    simp only [hforged, false_or, Tables.handle, Tables.validated, Tables.validateCodeleteArgs,
      hunseal, Option.bind_eq_bind, Option.bind_some]
    by_cases h : ToSpace s args.nsCap
    · by_cases htype : TypeUnreadable args.nsCap
      · simp [h, htype, (validNamespaceCap_toSpace ht h).1 htype]
      · simp only [h, htype, (validNamespaceCap_toSpace ht h).2 htype, Option.bind_some,
          Bool.true_eq_false, if_false, true_and, false_or]
        cases objectCase s args.nsobj with
        | other hobj hvalid => simp [hobj, hvalid]
        | unreadable hobj hun hvalid => simp [hobj, hun, hvalid]
        | wiped hobj hun hot hwiped hvalid => simp [hun, hot, hwiped, hvalid]
        | found hobj hun hkept hvalid =>
          simp only [hobj, hun, hkept, hvalid, Option.bind_some, Bool.true_eq_false, if_false,
            true_and, false_or, not_false_eq_true]
          by_cases hdelete : Meets args.nsobj.perms nsobjPermD
          · rw [namespaceObjectDelete_isSome hok h hobj hdelete]
            tauto
          · simp [hdelete, Tables.namespaceObjectDelete]
    · simp [h, validNamespaceCap_other h]

/-- `coupdate` of a sealed object that passes the checks returns when it can read the type and
store through the capability. -/
theorem namespaceObjectUpdate_isSome {args : ObjectArgs} (hobj : ToObject s args.nsobj)
    (hwrite : Meets args.nsobj.perms nsobjPermW) :
    (s.namespaceObjectUpdate args).isSome = true ↔ Meets args.nsobj.perms permLoad ∧
      (HasType s args.nsobj .reservation → args.nsobj.StoresCap args.obj) := by
  obtain ⟨i, o, htarget, ho⟩ := hobj.entry
  have hunseal : unsealNsobj args.nsobj = args.nsobj.unsealed := unsealNsobj_eq hobj.known
  have hread := nsobj_unsealNsobj hobj htarget ho
  have hperms : args.nsobj.unsealed.perms = args.nsobj.perms := rfl
  have hstores : args.nsobj.unsealed.StoresCap args.obj ↔ args.nsobj.StoresCap args.obj := Iff.rfl
  have htarget' : args.nsobj.unsealed.target ≠ none := by simp [Cap.unsealed, htarget]
  rw [hunseal] at hread
  simp only [Tables.namespaceObjectUpdate, hunseal, htarget', if_false, hperms, hwrite,
    not_true_eq_false, hread, hasType_iff htarget ho, hstores]
  by_cases hload : Meets args.nsobj.perms permLoad
  · by_cases hres : o.type = .reservation <;>
      by_cases hstore : args.nsobj.StoresCap args.obj <;> simp [hload, hres, hstore]
  · simp [hload]

theorem namespaceObjectUpdate_refused {args : ObjectArgs} (hobj : ToObject s args.nsobj)
    (hwrite : ¬Meets args.nsobj.perms nsobjPermW) :
    (s.namespaceObjectUpdate args).isSome = true := by
  have hperms : ¬Meets (unsealNsobj args.nsobj).perms nsobjPermW := by
    rw [unsealNsobj_eq hobj.known]
    exact hwrite
  simp only [Tables.namespaceObjectUpdate, hperms, not_false_eq_true, if_true]
  split <;> rfl

theorem coupdate_isSome (args : ObjectArgs) :
    (s.handle (.coupdate args)).isSome = true ↔ ¬TakesDown s (.coupdate args) := by
  simp only [TakesDown, Tables.handle, Tables.validated, Tables.validateCoupdateArgs,
    Option.bind_eq_bind]
  cases objectCase s args.nsobj with
  | other hobj hvalid => simp [hobj, hvalid]
  | unreadable hobj hun hvalid => simp [hobj, hun, hvalid]
  | wiped hobj hun hot hwiped hvalid =>
    simp [hun, hvalid, UpdateChecks, Cap.isSealed, hot]
  | found hobj hun hkept hvalid =>
    simp only [hobj, hun, hvalid, Option.bind_some, Bool.true_eq_false, if_false, true_and,
      false_or, UpdateChecks]
    by_cases hsealed : args.nsobj.isSealed = true
    · by_cases htype : args.nsobjType.toInt = 0
      · simp [hsealed, htype]
      · by_cases hhandle : args.obj.isSealed = true
        · by_cases hglobal : Meets args.obj.perms permGlobal
          · simp [hsealed, htype, hhandle, hglobal]
          · by_cases hwrite : Meets args.nsobj.perms nsobjPermW
            · have hupdate := namespaceObjectUpdate_isSome hobj hwrite
              simp [hsealed, htype, hhandle, hglobal, hwrite, hupdate]
            · have hrefused := namespaceObjectUpdate_refused hobj hwrite
              simp [hsealed, htype, hhandle, hglobal, hwrite, hrefused]
        · simp [hsealed, htype, hhandle]
    · simp [hsealed]

end Requests

/-! ### Runs -/

section Runs
variable {maxNamespaces maxNsobjects : Nat} {s : Tables}
  {handles : List UInt8 → Option { handle : NsCap // handle.tag = true }}

end Runs

/-- A coport with an empty name. -/
def coportNoName : ObjectArgs := { coportA with nsobjName := [] }

end Comsg.Proofs.Nsd
