import Comsg.Nsd.Handlers

/-!
# `Comsg.Proofs.Nsd.Effect`: what a request does to nsd's tables

`Effect` lists what a request that is answered can have done to the tables, with what its
validator and its handler have checked by then. `handle_effect` shows that there is nothing
else. The invariants of the tables are proved from it, one case for each change.
-/

set_option autoImplicit false

namespace Comsg.Proofs.Nsd

open Comsg.Lib
open Comsg.Nsd
open Comsg.Nsd.Tables (nsPtr nsobjPtr)

section Access
variable {s : Tables} {c : NsCap} {i : Nat} {space : Namespace} {o : Nsobject}

/-- An entry of a table, with its index. -/
theorem map_index_eq_some {α : Type} {xs : List α} {i j : Nat} {x : α} :
    xs[j]?.map (j, ·) = some (i, x) ↔ j = i ∧ xs[i]? = some x := by
  simp only [Option.map_eq_some_iff, Prod.mk.injEq]
  constructor
  · rintro ⟨a, ha, rfl, rfl⟩
    exact ⟨rfl, ha⟩
  · rintro ⟨rfl, ha⟩
    exact ⟨x, ha, rfl, rfl⟩

theorem ns_eq_some : s.ns c = some (i, space) ↔
    c.load = some (.ns i) ∧ s.namespaces[i]? = some space := by
  unfold Tables.ns
  split
  · rename_i j hload
    rw [map_index_eq_some, hload, Option.some.injEq, Target.ns.injEq]
  · rename_i hload
    simp only [reduceCtorEq, false_iff, not_and]
    intro heq
    exact absurd heq (hload i)

theorem nsobj_eq_some : s.nsobj c = some (i, o) ↔
    c.load = some (.nsobj i) ∧ s.nsobjects[i]? = some o := by
  unfold Tables.nsobj
  split
  · rename_i j hload
    rw [map_index_eq_some, hload, Option.some.injEq, Target.nsobj.injEq]
  · rename_i hload
    simp only [reduceCtorEq, false_iff, not_and]
    intro heq
    exact absurd heq (hload i)

/-- `unseal_ns` of a tagged capability that is not sealed, or has one of nsd's seals. -/
theorem unsealNs_eq (htag : c.tag = true) (hseal : ∀ ot ∈ c.otype, nsOtypeToType ot ≠ .invalidNs) :
    unsealNs c = some c.unsealed := by
  unfold unsealNs
  cases hot : c.otype with
  | none =>
    have hsame : c.unsealed = c := by
      rw [Cap.unsealed, ← hot]
    simp [hsame]
  | some ot => simp [hseal ot (by simp [hot]), htag]

/-- `unseal_nsobj` of a capability that is not sealed, or has one of nsd's seals. -/
theorem unsealNsobj_eq (hseal : ∀ ot ∈ c.otype, nsobjOtypeToType ot ≠ .invalidNsobj) :
    unsealNsobj c = c.unsealed := by
  unfold unsealNsobj
  cases hot : c.otype with
  | none =>
    have hsame : c.unsealed = c := by
      rw [Cap.unsealed, ← hot]
    simp [hsame]
  | some ot => simp [hseal ot (by simp [hot])]

/-- The namespaces that nsd can open through a capability. -/
theorem openNs_eq_some : s.openNs c = some (i, space) ↔
    c.tag = true ∧ (∀ ot ∈ c.otype, nsOtypeToType ot ≠ .invalidNs) ∧ Meets c.perms permLoad ∧
      Meets c.perms permLoadCap ∧ c.target = some (.ns i) ∧ s.namespaces[i]? = some space := by
  constructor
  · intro h
    obtain ⟨c', hc', hopen⟩ := Option.bind_eq_some_iff.mp h
    split at hopen
    · rename_i hcap
      obtain ⟨hload, hspace⟩ := ns_eq_some.mp hopen
      obtain ⟨htag, -, hperm, htarget⟩ := Cap.load_eq_some.mp hload
      unfold unsealNs at hc'
      split at hc'
      · rename_i hot
        cases hc'
        exact ⟨htag, by simp [hot], hperm, hcap, htarget, hspace⟩
      · rename_i ot hot
        split at hc'
        · cases hc'
          cases htag
        · rename_i hseal
          split at hc' <;> cases hc'
          exact ⟨htag, by simpa [hot] using hseal, hperm, hcap, htarget, hspace⟩
    · cases hopen
  · rintro ⟨htag, hseal, hperm, hcap, htarget, hspace⟩
    have hload : c.unsealed.load = some (.ns i) :=
      Cap.load_eq_some.mpr ⟨htag, rfl, hperm, htarget⟩
    have hns := ns_eq_some.mpr ⟨hload, hspace⟩
    simpa [Tables.openNs, unsealNs_eq htag hseal, show Meets c.unsealed.perms permLoadCap from hcap]
      using hns

/-- A namespace that could be opened is the target of the capability. -/
theorem openNs_target (h : s.openNs c = some (i, space)) :
    c.target = some (.ns i) ∧ s.namespaces[i]? = some space := by
  obtain ⟨-, -, -, -, htarget, hspace⟩ := openNs_eq_some.mp h
  exact ⟨htarget, hspace⟩

theorem unsealNsobj_target {t : Target} (h : (unsealNsobj c).target = some t) :
    c.target = some t := by
  unfold unsealNsobj at h
  split at h
  · exact h
  · split at h
    · cases h
    · exact h

/-- An object that could be read is the target of the capability. -/
theorem nsobj_unsealNsobj_target (h : s.nsobj (unsealNsobj c) = some (i, o)) :
    c.target = some (.nsobj i) ∧ s.nsobjects[i]? = some o := by
  obtain ⟨hload, ho⟩ := nsobj_eq_some.mp h
  obtain ⟨-, -, -, htarget⟩ := Cap.load_eq_some.mp hload
  exact ⟨unsealNsobj_target htarget, ho⟩

/-! nsd reads its tables through its own capabilities. -/

theorem nsobj_of_load (h : c.load = some (.nsobj i)) :
    s.nsobj c = s.nsobjects[i]?.map (i, ·) := by
  simp [Tables.nsobj, h]

theorem nsobj_nsobjPtr : s.nsobj (nsobjPtr i) = s.nsobjects[i]?.map (i, ·) :=
  nsobj_of_load
    (Cap.load_eq_some.mpr ⟨rfl, rfl, show Meets dataPerms permLoad by decide, rfl⟩)

theorem nsobj_nsobjPtr_own :
    s.nsobj ((nsobjPtr i).andperm nsobjPermsOwnMask) = s.nsobjects[i]?.map (i, ·) :=
  nsobj_of_load (Cap.load_eq_some.mpr
    ⟨rfl, rfl, show Meets (dataPerms &&& nsobjPermsOwnMask) permLoad by decide, rfl⟩)

end Access

/-! ### The changes -/

/-- A new object at the head of the list of namespace `p`. -/
def addObject (s : Tables) (p : Nat) (o : Nsobject) : Tables :=
  { s with
    nsobjects := s.nsobjects ++ [o]
    namespaces := s.namespaces.modify p fun n =>
      { n with objects := s.nsobjects.length :: n.objects } }

/-- Object `i` leaves namespace `p`, and its entry is wiped. -/
def removeObject (s : Tables) (p i : Nat) : Tables :=
  { s with
    namespaces := s.namespaces.modify p fun n => { n with objects := n.objects.erase i }
    nsobjects := s.nsobjects.modify i fun _ => ⟨List.replicate nsNameLen 0, .invalidNsobj, .null⟩ }

/-- Object `i` gets a type and a handle. -/
def fillObject (s : Tables) (i : Nat) (type : NsobjectType) (obj : NsCap) : Tables :=
  { s with nsobjects := s.nsobjects.modify i fun o => { o with type := type, obj := obj } }

/-- A new namespace at the head of the children of namespace `p`. -/
def addNamespace (s : Tables) (p : Nat) (n : Namespace) : Tables :=
  { s with
    namespaces := s.namespaces.modify p (fun m =>
      { m with namespaces := s.namespaces.length :: m.namespaces }) ++ [n] }

/-- Namespace `i` leaves its own children. -/
def dropNamespace (s : Tables) (i : Nat) : Tables :=
  { s with
    namespaces := s.namespaces.modify i fun n => { n with namespaces := n.namespaces.erase i } }

/-- The handle that `coinsert` stores. A reservation has none. -/
def insertedHandle (args : ObjectArgs) : NsCap :=
  if args.nsobjType = .reservation then .null else args.obj

/-- The object of a `coinsert`. -/
def insertedObject (args : ObjectArgs) : Nsobject :=
  ⟨strncpy nsNameLen args.nsobjName, args.nsobjType, insertedHandle args⟩

/-- The capability that `coinsert` returns. That to a reservation is sealed, and the others may not
be stored through. -/
def insertedCap (s : Tables) (args : ObjectArgs) : NsCap :=
  let obj := (nsobjPtr s.nsobjects.length).andperm nsobjPermsOwnMask
  if args.nsobjType = .reservation then obj.sealWith .reservationNsobj else obj.clearperm nsobjPermW

theorem insertedCap_target (s : Tables) (args : ObjectArgs) :
    (insertedCap s args).target = some (.nsobj s.nsobjects.length) := by
  unfold insertedCap
  split <;> rfl

/-- What a request that is answered can have done, with what was checked before. -/
inductive Effect (s : Tables) : Request → Tables → Reply → Prop
  | refused (r : Request) (error : Errno) : Effect s r s (.err error)
  | inserted (args : ObjectArgs) (p : Nat) (space : Namespace) (cap : NsCap)
      (hwr : Meets args.nsCap.perms nsPermWr) (hopen : s.openNs args.nsCap = some (p, space))
      (hname : validNsName args.nsobjName = true) (htype : validNsobjType args.nsobjType = true)
      (hobjects : ∀ i ∈ space.objects, s.objectNamed args.nsobjName i = false)
      (hspaces : ∀ i ∈ space.namespaces, s.namespaceNamed args.nsobjName i = false)
      (hcap : cap = insertedCap s args)
      (hvalid : s.validateCoinsertArgs args = some true) :
      Effect s (.coinsert args) (addObject s p (insertedObject args)) (.ok cap)
  | insertedNothing (args : ObjectArgs) (p : Nat) (space : Namespace)
      (hwr : Meets args.nsCap.perms nsPermWr) (hopen : s.openNs args.nsCap = some (p, space))
      (htype : validNsobjType args.nsobjType = false)
      (hobjects : ∀ i ∈ space.objects, s.objectNamed args.nsobjName i = false)
      (hspaces : ∀ i ∈ space.namespaces, s.namespaceNamed args.nsobjName i = false)
      (hvalid : s.validateCoinsertArgs args = some true) :
      Effect s (.coinsert args) s (.ok .null)
  | selected (args : ObjectArgs) (cap : NsCap) : Effect s (.coselect args) s (.ok cap)
  | deleted (args : ObjectArgs) (p i : Nat) (space : Namespace) (o : Nsobject)
      (hopen : s.openNs args.nsCap = some (p, space)) (ho : s.nsobjects[i]? = some o)
      (hcap : args.nsobj.target = some (.nsobj i)) (hmem : i ∈ space.objects) :
      Effect s (.codelete args) (removeObject s p i) (.ok .null)
  | updated (args : ObjectArgs) (i : Nat) (o : Nsobject) (cap : NsCap)
      (hcap : args.nsobj.target = some (.nsobj i)) (ho : s.nsobjects[i]? = some o)
      (hreserved : o.type = .reservation) (htype : args.nsobjType ≠ .reservation)
      (hvalid : s.validateCoupdateArgs args = some true) :
      Effect s (.coupdate args) (fillObject s i args.nsobjType args.obj) (.ok cap)
  | found (args : SpaceArgs) (cap : NsCap) (hwr : Meets args.nsCap.perms nsPermWr) :
      Effect s (.cocreate args) s (.ok cap)
  | created (args : SpaceArgs) (p : Nat) (space : Namespace) (parent cap : NsCap)
      (hwr : Meets args.nsCap.perms nsPermWr)
      (hvalid : s.validateNscreateParams args.nsCap args.nsType args.nsName = some true)
      (hopen : s.openNs args.nsCap = some (p, space))
      (hspaces : ∀ i ∈ space.namespaces, s.namespaceNamed args.nsName i = false)
      (hparent : s.sealNs (args.nsCap.unsealed.andperm nsPermsObjMask) = some parent) :
      Effect s (.cocreate args)
        (addNamespace s p ⟨strncpy nsNameLen args.nsName, args.nsType, parent, [], []⟩) (.ok cap)
  | dropped (args : SpaceArgs) (i : Nat) (space : Namespace)
      (hopen : s.openNs args.nsCap = some (i, space)) (hmem : i ∈ space.namespaces) :
      Effect s (.codrop args) (dropNamespace s i) (.ok .null)

section Handlers
variable {s s' : Tables} {args : ObjectArgs} {reply : Reply}

theorem validateNsobjcreateParams_true {name : List UInt8} {type : NsobjectType} {parent : NsCap}
    (h : s.validateNsobjcreateParams name type parent = some true) :
    validNsName name = true ∧ validNsobjType type = true := by
  simp only [Tables.validateNsobjcreateParams, Option.bind_eq_bind, Option.bind_eq_some_iff] at h
  obtain ⟨valid, -, h⟩ := h
  split at h
  · cases h
  · split at h
    · cases h
    · rename_i hname
      split at h
      · cases h
      · rename_i htype
        exact ⟨by simpa using hname, by simpa using htype⟩

theorem allocateNsobject_eq {parent : NsCap} {o : Nsobject} {i : Nat}
    (h : s.allocateNsobject parent o = some (s', i)) :
    ∃ p space, s.openNs parent = some (p, space) ∧ s' = addObject s p o ∧
      i = s.nsobjects.length := by
  simp only [Tables.allocateNsobject] at h
  split at h
  · cases h
  · obtain ⟨⟨p, space⟩, hopen, hs'⟩ := Option.bind_eq_some_iff.mp h
    cases hs'
    exact ⟨p, space, hopen, rfl, rfl⟩

theorem allocateNamespace_eq {parent : NsCap} {n : Namespace} {i : Nat}
    (h : s.allocateNamespace parent n = some (s', i)) :
    ∃ p space, s.openNs parent = some (p, space) ∧ s' = addNamespace s p n := by
  simp only [Tables.allocateNamespace] at h
  split at h
  · cases h
  · obtain ⟨⟨p, space⟩, hopen, hs'⟩ := Option.bind_eq_some_iff.mp h
    cases hs'
    exact ⟨p, space, hopen, rfl⟩

/-- `new_nsobject` returns `NULL`, or its parameters were fine and there is a new object. -/
theorem newNsobject_cases {name : List UInt8} {type : NsobjectType} {parent obj : NsCap}
    (h : s.newNsobject name type parent = some (s', obj)) :
    (s' = s ∧ obj = .null) ∨
    ∃ p space, s.openNs parent = some (p, space) ∧ validNsName name = true ∧
      validNsobjType type = true ∧
      s' = addObject s p ⟨strncpy nsNameLen name, type, .null⟩ ∧
      obj = (nsobjPtr s.nsobjects.length).andperm nsobjPermsOwnMask := by
  simp only [Tables.newNsobject, Option.bind_eq_bind, Option.bind_eq_some_iff] at h
  obtain ⟨valid, hvalid, h⟩ := h
  split at h
  · cases h
    exact .inl ⟨rfl, rfl⟩
  · rename_i hok
    obtain ⟨hname, htype⟩ := validateNsobjcreateParams_true (by simpa [hok] using hvalid)
    obtain ⟨⟨s'', i⟩, halloc, hs'⟩ := Option.bind_eq_some_iff.mp h
    obtain ⟨p, space, hopen, rfl, rfl⟩ := allocateNsobject_eq halloc
    cases hs'
    exact .inr ⟨p, space, hopen, hname, htype, rfl, rfl⟩

/-- A change of the last entry. -/
theorem modify_concat_length {α : Type} (xs : List α) (x : α) (f : α → α) :
    (xs ++ [x]).modify xs.length f = xs ++ [f x] := by
  induction xs with
  | nil => rfl
  | cons y xs ih => simp [ih]

/-- The store of a handle in the newest object. -/
theorem setObj_addObject {p : Nat} {o : Nsobject} {obj : NsCap} :
    (addObject s p o).setObj s.nsobjects.length obj = addObject s p { o with obj := obj } := by
  simp [addObject, Tables.setObj, modify_concat_length]

theorem nsobj_null : s.nsobj .null = none := rfl

/-- nsd seals its own capability to a reservation. -/
theorem sealNsobj_reservation {c : NsCap} {i : Nat} {o : Nsobject} (h : s.nsobj c = some (i, o))
    (ho : o.type = .reservation) : s.sealNsobj c = some (c.sealWith .reservationNsobj) := by
  simp [Tables.sealNsobj, h, ho, getNsobjSealcap]

/-- nsd reads the newest object through its owner's capability. -/
theorem nsobj_addObject {p : Nat} {o : Nsobject} :
    (addObject s p o).nsobj ((nsobjPtr s.nsobjects.length).andperm nsobjPermsOwnMask) =
      some (s.nsobjects.length, o) := by
  rw [nsobj_nsobjPtr_own]
  simp [addObject]

/-- `coinsert` after its validator. -/
theorem insert_effect (hvalid : s.validateCoinsertArgs args = some true)
    (h : s.namespaceObjectInsert args = some (s', reply)) :
    Effect s (.coinsert args) s' reply := by
  simp only [Tables.namespaceObjectInsert] at h
  split at h
  · cases h
    exact .refused _ _
  · rename_i hwr
    rw [not_not] at hwr
    obtain ⟨present, hpresent, h⟩ := Option.bind_eq_some_iff.mp h
    split at h
    · cases h
      exact .refused _ _
    · rename_i habsent
      -- The name is neither that of an object nor that of a child.
      obtain ⟨⟨p, space⟩, hopen, heq⟩ := Option.bind_eq_some_iff.mp hpresent
      simp only [Option.some.injEq] at heq
      rw [← heq] at habsent
      simp only [Bool.or_eq_true, List.any_eq_true, not_or, not_exists, not_and,
        Bool.not_eq_true] at habsent
      obtain ⟨⟨s₁, obj⟩, hnew, h⟩ := Option.bind_eq_some_iff.mp h
      rcases newNsobject_cases hnew with ⟨rfl, rfl⟩ | ⟨p', space', hopen', hname, htype, rfl, rfl⟩
      · -- Storing through `NULL` faults, so only a type that stores nothing returns.
        cases ht : args.nsobjType with
        | commap | coservice | coport | reservation =>
          simp [ht, nsobj_null] at h
        | invalidNsobj | other v hv =>
          simp only [ht, Option.some.injEq, Prod.mk.injEq] at h
          obtain ⟨rfl, rfl⟩ := h
          exact .insertedNothing args p space hwr hopen (by simp [ht, validNsobjType]) habsent.1
            habsent.2 hvalid
      · obtain ⟨rfl, rfl⟩ : p' = p ∧ space' = space := by
          rw [hopen] at hopen'
          cases hopen'
          exact ⟨rfl, rfl⟩
        -- What is stored is the object of the request.
        have hstored : addObject s p'
            { (⟨strncpy nsNameLen args.nsobjName, args.nsobjType, .null⟩ : Nsobject) with
              obj := insertedHandle args } = addObject s p' (insertedObject args) := rfl
        cases ht : args.nsobjType with
        | commap | coservice | coport =>
          have hhandle : insertedHandle args = args.obj := by simp [insertedHandle, ht]
          simp only [ht, nsobj_addObject, setObj_addObject, Option.bind_eq_bind, Option.bind_some,
            Option.some.injEq, Prod.mk.injEq] at h hstored
          obtain ⟨rfl, rfl⟩ := h
          rw [← hhandle, hstored]
          exact .inserted args p' space' _ hwr hopen hname htype habsent.1 habsent.2
            (by simp [insertedCap, ht]) hvalid
        | reservation =>
          have hhandle : insertedHandle args = .null := by simp [insertedHandle, ht]
          have hseal := sealNsobj_reservation
            (s := addObject s p' ⟨strncpy nsNameLen args.nsobjName, .reservation, .null⟩)
            nsobj_addObject rfl
          simp only [ht, nsobj_addObject, setObj_addObject, hseal, Option.bind_eq_bind,
            Option.bind_some, Option.some.injEq, Prod.mk.injEq] at h hstored
          obtain ⟨rfl, rfl⟩ := h
          rw [hhandle] at hstored
          rw [hstored]
          exact .inserted args p' space' _ hwr hopen hname htype habsent.1 habsent.2
            (by simp [insertedCap, ht]) hvalid
        | invalidNsobj | other v hv => simp [ht, validNsobjType] at htype

theorem select_effect (h : s.namespaceObjectSelect args = some (s', reply)) :
    Effect s (.coselect args) s' reply := by
  obtain ⟨obj, -, h⟩ := Option.bind_eq_some_iff.mp h
  split at h
  · cases h
    exact .refused _ _
  · obtain ⟨⟨i, o⟩, -, h⟩ := Option.bind_eq_some_iff.mp h
    simp only at h
    split at h
    · cases h
      exact .refused _ _
    · split at h
      · obtain ⟨cap, -, h⟩ := Option.bind_eq_some_iff.mp h
        cases h
        exact .selected args cap
      · cases h
        exact .selected args _

/-- `codelete` after its validator: an error, or the object that the lookup found is gone. -/
theorem delete_cases (h : s.namespaceObjectDelete args = some (s', reply)) :
    (s' = s ∧ ∃ error, reply = .err error) ∨
    ∃ p i space o parentObj, Meets args.nsobj.perms nsobjPermD ∧
      s.nsobj (unsealNsobj args.nsobj) = some (i, o) ∧
      s.lookupNsobject o.name o.type args.nsCap = some parentObj ∧
      parentObj.target = some (.nsobj i) ∧ s.openNs args.nsCap = some (p, space) ∧
      i ∈ space.objects ∧ s' = removeObject s p i ∧ reply = .ok .null := by
  simp only [Tables.namespaceObjectDelete] at h
  split at h
  · cases h
    exact .inl ⟨rfl, _, rfl⟩
  · rename_i hpermits
    rw [not_not] at hpermits
    obtain ⟨⟨i, o⟩, hreads, h⟩ := Option.bind_eq_some_iff.mp h
    obtain ⟨parentObj, hlookup, h⟩ := Option.bind_eq_some_iff.mp h
    split at h
    · cases h
      exact .inl ⟨rfl, _, rfl⟩
    · simp only at h
      split at h
      · cases h
        exact .inl ⟨rfl, _, rfl⟩
      · rename_i htarget
        rw [ne_eq, not_not] at htarget
        obtain ⟨⟨s₁, found⟩, hdelete, h⟩ := Option.bind_eq_some_iff.mp h
        obtain ⟨⟨p, space⟩, hopen, hdelete⟩ := Option.bind_eq_some_iff.mp hdelete
        simp only at hdelete
        split at hdelete
        · rename_i hmem
          cases hdelete
          simp only [if_true, Option.some.injEq, Prod.mk.injEq] at h
          obtain ⟨rfl, rfl⟩ := h
          exact .inr ⟨p, i, space, o, parentObj, hpermits, hreads, hlookup, htarget, hopen, hmem,
            rfl, rfl⟩
        · cases hdelete
          simp only [Bool.false_eq_true, if_false, Option.some.injEq, Prod.mk.injEq] at h
          obtain ⟨rfl, rfl⟩ := h
          exact .inl ⟨rfl, _, rfl⟩

theorem delete_effect (h : s.namespaceObjectDelete args = some (s', reply)) :
    Effect s (.codelete args) s' reply := by
  rcases delete_cases h with ⟨rfl, error, rfl⟩ |
    ⟨p, i, space, o, parentObj, -, hreads, -, -, hopen, hmem, rfl, rfl⟩
  · exact .refused _ _
  · obtain ⟨htarget, ho⟩ := nsobj_unsealNsobj_target hreads
    exact .deleted args p i space o hopen ho htarget hmem

/-- A `coupdate` that passes its validator does not ask for the type 0. -/
theorem validateCoupdateArgs_type (h : s.validateCoupdateArgs args = some true) :
    args.nsobjType ≠ .reservation := by
  obtain ⟨valid, -, h⟩ := Option.bind_eq_some_iff.mp h
  split at h
  · cases h
  · split at h
    · cases h
    · split at h
      · cases h
      · rename_i hne
        intro hres
        exact hne (by simp [hres, NsobjectType.toInt])

/-- A `coupdate` that passes its validator has a sealed handle. -/
theorem validateCoupdateArgs_obj (h : s.validateCoupdateArgs args = some true) :
    args.obj ≠ .null := by
  intro hnull
  obtain ⟨valid, -, h⟩ := Option.bind_eq_some_iff.mp h
  simp [hnull, Cap.isSealed, Cap.null] at h

theorem update_effect (hvalid : s.validateCoupdateArgs args = some true)
    (h : s.namespaceObjectUpdate args = some (s', reply)) :
    Effect s (.coupdate args) s' reply := by
  simp only [Tables.namespaceObjectUpdate] at h
  split at h
  · cases h
    exact .refused _ _
  · split at h
    · cases h
      exact .refused _ _
    · obtain ⟨⟨i, o⟩, hobj, h⟩ := Option.bind_eq_some_iff.mp h
      simp only at h
      split at h
      · cases h
        exact .refused _ _
      · rename_i htype
        rw [ne_eq, not_not] at htype
        split at h
        · cases h
        · obtain ⟨htarget, ho⟩ := nsobj_unsealNsobj_target hobj
          cases h
          exact .updated args i o _ htarget ho htype (validateCoupdateArgs_type hvalid) hvalid

theorem create_effect {args : SpaceArgs} (h : s.namespaceCreate args = some (s', reply)) :
    Effect s (.cocreate args) s' reply := by
  simp only [Tables.namespaceCreate] at h
  split at h
  · cases h
    exact .refused _ _
  · rename_i hwr
    rw [not_not] at hwr
    obtain ⟨child, hchild, h⟩ := Option.bind_eq_some_iff.mp h
    split at h
    · -- There is a child of that name, and the tables stay as they are.
      obtain ⟨⟨i, space⟩, -, h⟩ := Option.bind_eq_some_iff.mp h
      simp only at h
      split at h
      · cases h
        exact .refused _ _
      · split at h
        · cases h
          exact .refused _ _
        · split at h
          · cases h
            exact .refused _ _
          · obtain ⟨type, -, h⟩ := Option.bind_eq_some_iff.mp h
            split at h
            · cases h
              exact .refused _ _
            · obtain ⟨cap, -, h⟩ := Option.bind_eq_some_iff.mp h
              cases h
              exact .found args cap hwr
    · rename_i hnull
      rw [ne_eq, not_not] at hnull
      obtain ⟨⟨s₁, childCap⟩, hnew, h⟩ := Option.bind_eq_some_iff.mp h
      cases h
      obtain ⟨valid, hvalid, hnew⟩ := Option.bind_eq_some_iff.mp hnew
      split at hnew
      · cases hnew
        exact .found args .null hwr
      · rename_i hok
        rw [Bool.not_eq_false] at hok
        subst hok
        obtain ⟨unsealed, hunseal, hnew⟩ := Option.bind_eq_some_iff.mp hnew
        obtain ⟨parentCap, hparent, hnew⟩ := Option.bind_eq_some_iff.mp hnew
        obtain ⟨⟨s₂, i⟩, halloc, hnew⟩ := Option.bind_eq_some_iff.mp hnew
        obtain ⟨cap, -, hnew⟩ := Option.bind_eq_some_iff.mp hnew
        cases hnew
        obtain ⟨p, space, hopen, rfl⟩ := allocateNamespace_eq halloc
        obtain ⟨htag, hseal, -⟩ := openNs_eq_some.mp hopen
        obtain rfl : args.nsCap.unsealed = unsealed := by
          rw [unsealNs_eq htag hseal, Option.some.injEq] at hunseal
          exact hunseal
        refine .created args p space parentCap _ hwr hvalid hopen (fun j hj => ?_) hparent
        simp only [Tables.lookupNamespace, hopen, Option.bind_eq_bind, Option.bind_some] at hchild
        split at hchild
        · rename_i hfind
          exact Bool.not_eq_true _ ▸ List.find?_eq_none.mp hfind j hj
        · cases hchild
          cases hnull

theorem drop_effect {args : SpaceArgs} (h : s.namespaceDrop args = some (s', reply)) :
    Effect s (.codrop args) s' reply := by
  simp only [Tables.namespaceDrop] at h
  split at h
  · cases h
    exact .refused _ _
  · obtain ⟨⟨j, space⟩, -, h⟩ := Option.bind_eq_some_iff.mp h
    obtain ⟨child, -, h⟩ := Option.bind_eq_some_iff.mp h
    split at h
    · cases h
      exact .refused _ _
    · obtain ⟨⟨s₁, found⟩, hdelete, h⟩ := Option.bind_eq_some_iff.mp h
      obtain ⟨⟨i, own⟩, hopen, hdelete⟩ := Option.bind_eq_some_iff.mp hdelete
      obtain ⟨parent, -, hdelete⟩ := Option.bind_eq_some_iff.mp hdelete
      split at hdelete
      · rename_i hmem
        cases hdelete
        simp only [if_true, Option.some.injEq, Prod.mk.injEq] at h
        obtain ⟨rfl, rfl⟩ := h
        exact .dropped args i own hopen hmem
      · cases hdelete
        simp only [Bool.false_eq_true, if_false, Option.some.injEq, Prod.mk.injEq] at h
        obtain ⟨rfl, rfl⟩ := h
        exact .refused _ _

/-- A request is refused by its validator, or its handler answers. -/
theorem validated_cases {valid : Option Bool} {handler : Option (Tables × Reply)}
    (h : s.validated valid handler = some (s', reply)) :
    (s' = s ∧ reply = .err .einval) ∨ (valid = some true ∧ handler = some (s', reply)) := by
  obtain ⟨ok, hok, h⟩ := Option.bind_eq_some_iff.mp h
  split at h
  · cases h
    exact .inl ⟨rfl, rfl⟩
  · rename_i hne
    exact .inr ⟨by simpa [hne] using hok, h⟩

/-- What a request does to the tables. -/
theorem handle_effect {r : Request} (h : s.handle r = some (s', reply)) : Effect s r s' reply := by
  cases r with
  | coinsert args =>
    rcases validated_cases h with ⟨rfl, rfl⟩ | ⟨hvalid, h⟩
    · exact .refused _ _
    · exact insert_effect hvalid h
  | coselect args =>
    rcases validated_cases h with ⟨rfl, rfl⟩ | ⟨-, h⟩
    · exact .refused _ _
    · exact select_effect h
  | codelete args =>
    rcases validated_cases h with ⟨rfl, rfl⟩ | ⟨-, h⟩
    · exact .refused _ _
    · exact delete_effect h
  | coupdate args =>
    rcases validated_cases h with ⟨rfl, rfl⟩ | ⟨hvalid, h⟩
    · exact .refused _ _
    · exact update_effect hvalid h
  | cocreate args =>
    rcases validated_cases h with ⟨rfl, rfl⟩ | ⟨-, h⟩
    · exact .refused _ _
    · exact create_effect h
  | codrop args =>
    rcases validated_cases h with ⟨rfl, rfl⟩ | ⟨-, h⟩
    · exact .refused _ _
    · exact drop_effect h

end Handlers

end Comsg.Proofs.Nsd
