import Comsg.Nsd.Capacity
import Comsg.Proofs.Nsd.Faults

/-!
# `Comsg.Proofs.Nsd.Capacity`: nsd at the end of its tables

`CountedEffect` says what a request does to the tables with their counters, beside what it does to
the tables without them. `counted_effect` shows that there is nothing else, in the states that a
run reaches (`Sound`): no flag is set there, and every member of a list has an entry.

The test for a full table sets a flag, and then goes on to the entry behind the end. So the
request that finds a table full is not refused. It brings nsd down (`exhaustion_clean_iff`).
-/

set_option autoImplicit false

namespace Comsg.Proofs.Nsd

open Comsg.Lib
open Comsg.Nsd
open Comsg.Nsd.Tables (nsPtr nsobjPtr)

@[simp] theorem ok_bind {α β : Type} (a : α) (f : α → Except Fault β) :
    (Except.ok a >>= f) = f a := rfl

@[simp] theorem error_bind {α β : Type} (e : Fault) (f : α → Except Fault β) :
    (Except.error e >>= f) = .error e := rfl

@[simp] theorem orFault_some {α : Type} (a : α) : orFault (some a) = .ok a := rfl

@[simp] theorem orFault_none {α : Type} : orFault (none : Option α) = .error .other := rfl

/-- The states of nsd: no table was ever found full, and every member of a list has an entry. -/
structure Sound (c : Counted) : Prop where
  nextSpace : c.namespaceTable.next = c.tables.namespaces.length
  nextObject : c.nsobjectTable.next = c.tables.nsobjects.length
  notFullSpace : c.namespaceTable.full = false
  notFullObject : c.nsobjectTable.full = false
  noNullObject : ∀ p, c.nullObjects p = 0
  noNullSpace : ∀ p, c.nullSpaces p = 0

/-- A `coinsert` that comes to `new_nsobject_entry`. -/
def NeedsObject (s : Tables) (args : ObjectArgs) : Prop :=
  s.validateCoinsertArgs args = some true ∧ Meets args.nsCap.perms nsPermWr ∧
    s.inNamespace args.nsobjName args.nsCap = some false ∧
    s.validateNsobjcreateParams args.nsobjName args.nsobjType args.nsCap = some true

/-- A `cocreate` that comes to `new_namespace_entry`. -/
def NeedsSpace (s : Tables) (args : SpaceArgs) : Prop :=
  s.validateCocreateArgs args = some true ∧ Meets args.nsCap.perms nsPermWr ∧
    s.lookupNamespace args.nsName args.nsCap = some .null ∧
    s.validateNscreateParams args.nsCap args.nsType args.nsName = some true

/-- The request is neither a `coinsert` nor a `cocreate`. -/
def MakesNothing (r : Request) : Prop := ∀ args args', r ≠ .coinsert args ∧ r ≠ .cocreate args'

/-- What a request does. -/
inductive CountedEffect (c : Counted) : Request → Except Fault (Counted × Reply) → Prop
  | down (r : Request) (h : c.tables.handle r = none) : CountedEffect c r (.error .other)
  | kept (r : Request) (reply : Reply) (h : c.tables.handle r = some (c.tables, reply)) :
      CountedEffect c r (.ok (c, reply))
  | noObject (args : ObjectArgs) (hneeds : NeedsObject c.tables args)
      (hfull : c.tables.maxNsobjects ≤ c.nsobjectTable.next)
      (h : c.tables.handle (.coinsert args) = none) :
      CountedEffect c (.coinsert args) (.error (.entry c.nsobjectTable.next))
  | noSpace (args : SpaceArgs) (hneeds : NeedsSpace c.tables args)
      (hfull : c.tables.maxNamespaces ≤ c.namespaceTable.next)
      (h : c.tables.handle (.cocreate args) = none) :
      CountedEffect c (.cocreate args) (.error (.entry c.namespaceTable.next))
  | object (args : ObjectArgs) (p : Nat) (s : Tables) (cap : NsCap)
      (hneeds : NeedsObject c.tables args)
      (hroom : c.nsobjectTable.next < c.tables.maxNsobjects)
      (h : c.tables.handle (.coinsert args) = some (s, .ok cap))
      (hspaces : s.namespaces.length = c.tables.namespaces.length)
      (hobjects : s.nsobjects.length = c.tables.nsobjects.length + 1) :
      CountedEffect c (.coinsert args) (.ok ({ c with
        tables := s
        nsobjectTable := ⟨c.nsobjectTable.next + 1, c.nsobjectTable.count + 1, false⟩
        nobjects := bump c.nobjects p }, .ok cap))
  | space (args : SpaceArgs) (p : Nat) (s : Tables) (cap : NsCap)
      (hneeds : NeedsSpace c.tables args)
      (hroom : c.namespaceTable.next < c.tables.maxNamespaces)
      (h : c.tables.handle (.cocreate args) = some (s, .ok cap))
      (hspaces : s.namespaces.length = c.tables.namespaces.length + 1)
      (hobjects : s.nsobjects.length = c.tables.nsobjects.length) :
      CountedEffect c (.cocreate args) (.ok ({ c with
        tables := s
        namespaceTable := ⟨c.namespaceTable.next + 1, c.namespaceTable.count + 1, false⟩
        nspaces := bump c.nspaces p }, .ok cap))
  | other (r : Request) (s : Tables) (reply : Reply) (count : Nat)
      (h : c.tables.handle r = some (s, reply))
      (hkind : MakesNothing r)
      (hspaces : s.namespaces.length = c.tables.namespaces.length)
      (hobjects : s.nsobjects.length = c.tables.nsobjects.length) :
      CountedEffect c r (.ok ({ c with
        tables := s
        nsobjectTable := { c.nsobjectTable with count := count } }, reply))

section Lookups
variable {c : Counted} {name : List UInt8} {ns : NsCap}

theorem walkObjects_eq (hs : Sound c) : c.walkObjects ns = orFault ((c.tables.openNs ns).map
    fun _ => ()) := by
  cases hopen : c.tables.openNs ns with
  | none => simp [Counted.walkObjects, hopen]
  | some q => simp [Counted.walkObjects, hopen, hs.noNullObject]

theorem walkNamespaces_eq (hs : Sound c) : c.walkNamespaces ns = orFault ((c.tables.openNs ns).map
    fun _ => ()) := by
  cases hopen : c.tables.openNs ns with
  | none => simp [Counted.walkNamespaces, hopen]
  | some q => simp [Counted.walkNamespaces, hopen, hs.noNullSpace]

theorem counted_lookupNsobject (hs : Sound c) (type : NsobjectType) :
    c.lookupNsobject name type ns = orFault (c.tables.lookupNsobject name type ns) := by
  cases hopen : c.tables.openNs ns with
  | none => simp [Counted.lookupNsobject, walkObjects_eq hs, Tables.lookupNsobject, hopen]
  | some q => simp [Counted.lookupNsobject, walkObjects_eq hs, hopen]

theorem counted_lookupNamespace (hs : Sound c) :
    c.lookupNamespace name ns = orFault (c.tables.lookupNamespace name ns) := by
  cases hopen : c.tables.openNs ns with
  | none => simp [Counted.lookupNamespace, walkNamespaces_eq hs, Tables.lookupNamespace, hopen]
  | some q => simp [Counted.lookupNamespace, walkNamespaces_eq hs, hopen]

theorem counted_inNamespace (hs : Sound c) :
    c.inNamespace name ns = orFault (c.tables.inNamespace name ns) := by
  cases hopen : c.tables.openNs ns with
  | none => simp [Counted.inNamespace, walkObjects_eq hs, Tables.inNamespace, hopen]
  | some q =>
    simp only [Counted.inNamespace, walkObjects_eq hs, walkNamespaces_eq hs, hopen, Option.map_some,
      orFault_some, ok_bind]
    split
    · rename_i hany
      simp [Tables.inNamespace, hopen, hany]
    · rfl

theorem counted_validateNsobjcreateParams (hs : Sound c) (type : NsobjectType) :
    c.validateNsobjcreateParams name type ns =
      orFault (c.tables.validateNsobjcreateParams name type ns) := by
  simp only [Counted.validateNsobjcreateParams, Tables.validateNsobjcreateParams,
    counted_lookupNsobject hs]
  cases c.tables.validNamespaceCap ns with
  | none => rfl
  | some valid =>
    simp only [orFault_some, ok_bind, Option.bind_eq_bind, Option.bind_some]
    repeat' split
    all_goals try rfl
    cases c.tables.lookupNsobject name type ns <;> rfl

end Lookups

/-! ### `coinsert` -/

section Insert
variable {c : Counted} {name : List UInt8} {type : NsobjectType} {ns : NsCap}

/-- A namespace in which `validate_nsobjcreate_params` has looked for a name can be opened. -/
theorem openNs_of_validateNsobjcreateParams {s : Tables}
    (h : s.validateNsobjcreateParams name type ns = some true) :
    ∃ p space, s.openNs ns = some (p, space) := by
  cases hopen : s.openNs ns with
  | none =>
    have hlookup : s.lookupNsobject name type ns = none := by simp [Tables.lookupNsobject, hopen]
    obtain ⟨valid, -, h⟩ := Option.bind_eq_some_iff.mp h
    repeat' split at h
    all_goals simp [hlookup] at h
  | some q => exact ⟨q.1, q.2, rfl⟩

/-- `new_nsobject` behind its checks. -/
theorem counted_newNsobject (hs : Sound c)
    (hparams : c.tables.validateNsobjcreateParams name type ns = some true) :
    (c.tables.maxNsobjects ≤ c.nsobjectTable.next ∧ c.tables.newNsobject name type ns = none ∧
      c.newNsobject name type ns = .error (.entry c.nsobjectTable.next)) ∨
    (c.nsobjectTable.next < c.tables.maxNsobjects ∧ ∃ p,
      c.tables.newNsobject name type ns =
        some (addObject c.tables p ⟨strncpy nsNameLen name, type, .null⟩,
          (nsobjPtr c.tables.nsobjects.length).andperm nsobjPermsOwnMask) ∧
      c.newNsobject name type ns = .ok ({ c with
        tables := addObject c.tables p ⟨strncpy nsNameLen name, type, .null⟩
        nsobjectTable := ⟨c.nsobjectTable.next + 1, c.nsobjectTable.count + 1, false⟩
        nobjects := bump c.nobjects p },
        (nsobjPtr c.tables.nsobjects.length).andperm nsobjPermsOwnMask)) := by
  obtain ⟨p, space, hopen⟩ := openNs_of_validateNsobjcreateParams hparams
  simp only [Counted.newNsobject, Tables.newNsobject, counted_validateNsobjcreateParams hs, hparams,
    Counted.allocateNsobject, Tables.allocateNsobject, EntryTable.newEntry, hs.notFullObject,
    hs.nextObject, hopen, orFault_some, ok_bind, Option.bind_eq_bind, Option.bind_some]
  by_cases hroom : c.tables.nsobjects.length < c.tables.maxNsobjects
  · refine .inr ⟨hroom, p, ?_, ?_⟩
    · simp [Nat.not_le.mpr hroom, addObject]
    · simp [hroom, Nat.not_le.mpr hroom, addObject]
  · refine .inl ⟨Nat.not_lt.mp hroom, ?_, ?_⟩
    · simp [Nat.not_lt.mp hroom]
    · simp [hroom]

/-- `coinsert` of a name that is not taken. -/
theorem counted_insert_absent (hs : Sound c) {args : ObjectArgs}
    (hvalid : c.tables.validateCoinsertArgs args = some true)
    (hwr : Meets args.nsCap.perms nsPermWr)
    (hin : c.tables.inNamespace args.nsobjName args.nsCap = some false) :
    CountedEffect c (.coinsert args) (c.namespaceObjectInsert args) := by
  have hhandle : c.tables.handle (.coinsert args) = c.tables.namespaceObjectInsert args := by
    simp [Tables.handle, Tables.validated, hvalid]
  simp only [Tables.namespaceObjectInsert, hwr, hin, not_true_eq_false, Bool.false_eq_true,
    if_false, Option.bind_eq_bind, Option.bind_some] at hhandle
  simp only [Counted.namespaceObjectInsert, counted_inNamespace hs, hwr, hin, not_true_eq_false,
    Bool.false_eq_true, if_false, orFault_some, ok_bind]
  cases hparams : c.tables.validateNsobjcreateParams args.nsobjName args.nsobjType args.nsCap with
  | none =>
    simp only [Counted.newNsobject, counted_validateNsobjcreateParams hs, hparams, orFault_none,
      error_bind]
    exact .down _ (by simp [hhandle, Tables.newNsobject, hparams])
  | some valid =>
    cases valid with
    | false =>
      simp only [Tables.newNsobject, hparams, Option.bind_eq_bind, Option.bind_some, if_true,
        nsobj_null, Option.bind_none] at hhandle
      simp only [Counted.newNsobject, counted_validateNsobjcreateParams hs, hparams, orFault_some,
        ok_bind, if_true, nsobj_null, orFault_none, error_bind]
      -- Where the type stores a handle, that is through `NULL`.
      cases htype : args.nsobjType <;> simp only [htype] at hhandle ⊢
      case commap | coservice | coport | reservation => exact .down _ hhandle
      case invalidNsobj | other => exact .kept _ _ hhandle
    | true =>
      have hneeds : NeedsObject c.tables args := ⟨hvalid, hwr, hin, hparams⟩
      have htype := (validateNsobjcreateParams_true hparams).2
      rcases counted_newNsobject hs hparams with ⟨hfull, htables, heq⟩ | ⟨hroom, p, htables, heq⟩
      · -- The index is behind the table, where neither model goes on.
        rw [heq, error_bind]
        rw [htables] at hhandle
        exact .noObject args hneeds hfull hhandle
      · simp only [htables, Option.bind_some, nsobj_addObject, setObj_addObject] at hhandle
        simp only [heq, ok_bind, nsobj_addObject, setObj_addObject, orFault_some]
        have hseal := sealNsobj_reservation (s := addObject c.tables p
          ⟨strncpy nsNameLen args.nsobjName, .reservation, .null⟩) nsobj_addObject rfl
        cases hty : args.nsobjType <;> simp only [hty, hseal, Option.bind_some, orFault_some,
          ok_bind] at hhandle htype ⊢
        case commap | coservice | coport | reservation =>
          exact .object args p _ _ hneeds hroom hhandle (by simp [addObject]) (by simp [addObject])
        -- `validate_nsobjcreate_params` has refused the types without a branch of their own.
        case invalidNsobj | other => cases htype

/-- `coinsert` with the counters. -/
theorem counted_insert (hs : Sound c) {args : ObjectArgs}
    (hvalid : c.tables.validateCoinsertArgs args = some true) :
    CountedEffect c (.coinsert args) (c.namespaceObjectInsert args) := by
  have hhandle : c.tables.handle (.coinsert args) = c.tables.namespaceObjectInsert args := by
    simp [Tables.handle, Tables.validated, hvalid]
  by_cases hwr : Meets args.nsCap.perms nsPermWr
  · cases hin : c.tables.inNamespace args.nsobjName args.nsCap with
    | none =>
      simp only [Counted.namespaceObjectInsert, counted_inNamespace hs, hwr, hin, not_true_eq_false,
        if_false, orFault_none, error_bind]
      exact .down _ (by simp [hhandle, Tables.namespaceObjectInsert, hwr, hin])
    | some present =>
      cases present with
      | true =>
        simp only [Counted.namespaceObjectInsert, counted_inNamespace hs, hwr, hin,
          not_true_eq_false, if_false, orFault_some, ok_bind, if_true]
        exact .kept _ _ (by simp [hhandle, Tables.namespaceObjectInsert, hwr, hin])
      | false => exact counted_insert_absent hs hvalid hwr hin
  · simp only [Counted.namespaceObjectInsert, hwr, not_false_eq_true, if_true]
    exact .kept _ _ (by simp [hhandle, Tables.namespaceObjectInsert, hwr])

end Insert

/-! ### `cocreate` -/

section Create
variable {c : Counted} {s s' : Tables} {reply : Reply} {args : SpaceArgs}

/-- A `cocreate` that finds a child of that name changes nothing. -/
theorem namespaceCreate_found {child : NsCap} (hwr : Meets args.nsCap.perms nsPermWr)
    (hchild : s.lookupNamespace args.nsName args.nsCap = some child) (hne : child.target ≠ none)
    (h : s.namespaceCreate args = some (s', reply)) : s' = s := by
  simp only [Tables.namespaceCreate, hwr, not_true_eq_false, if_false, hchild, if_pos hne,
    Option.bind_eq_bind, Option.bind_some] at h
  obtain ⟨⟨i, space⟩, -, h⟩ := Option.bind_eq_some_iff.mp h
  simp only at h
  split at h
  · cases h
    rfl
  · split at h
    · cases h
      rfl
    · split at h
      · cases h
        rfl
      · obtain ⟨type, -, h⟩ := Option.bind_eq_some_iff.mp h
        split at h
        · cases h
          rfl
        · obtain ⟨cap, -, h⟩ := Option.bind_eq_some_iff.mp h
          cases h
          rfl

theorem lookupNamespace_null {name : List UInt8} {ns child : NsCap}
    (h : s.lookupNamespace name ns = some child) (hnull : child.target = none) : child = .null := by
  obtain ⟨⟨p, space⟩, -, h⟩ := Option.bind_eq_some_iff.mp h
  simp only at h
  split at h
  · cases h
    rfl
  · cases h
    cases hnull

/-- `new_namespace` behind its checks. -/
theorem counted_newNamespace (hs : Sound c) (ht : TreeOk c.tables) {name : List UInt8}
    {type : NsType} {ns : NsCap} {p : Nat} {space : Namespace}
    (hopen : c.tables.openNs ns = some (p, space))
    (hparams : c.tables.validateNscreateParams ns type name = some true) :
    (c.tables.maxNamespaces ≤ c.namespaceTable.next ∧ c.tables.newNamespace name type ns = none ∧
      c.newNamespace name type ns = .error (.entry c.namespaceTable.next)) ∨
    (c.namespaceTable.next < c.tables.maxNamespaces ∧ ∃ s cap,
      s.namespaces.length = c.tables.namespaces.length + 1 ∧ s.nsobjects = c.tables.nsobjects ∧
      c.tables.newNamespace name type ns = some (s, cap) ∧
      c.newNamespace name type ns = .ok ({ c with
        tables := s
        namespaceTable := ⟨c.namespaceTable.next + 1, c.namespaceTable.count + 1, false⟩
        nspaces := bump c.nspaces p }, cap)) := by
  obtain ⟨htag, hseal, hload, hcap, htarget, hp⟩ := openNs_eq_some.mp hopen
  obtain ⟨htype, -, -⟩ := validateNscreateParams_true hopen hparams
  have hns : c.tables.ns (ns.unsealed.andperm nsPermsObjMask) = some (p, space) :=
    ns_eq_some.mpr ⟨Cap.load_eq_some.mpr
      ⟨htag, rfl, (meets_and_iff (by decide)).mpr hload, htarget⟩, hp⟩
  obtain ⟨parent, hparent⟩ := Option.isSome_iff_exists.mp
    (sealNs_isSome hns (ht.space p space hp).type)
  by_cases hroom : c.tables.namespaces.length < c.tables.maxNamespaces
  · -- The new entry is the last one, and nsd reads its type to seal the capability.
    have hlast : (addNamespace c.tables p
        ⟨strncpy nsNameLen name, type, parent, [], []⟩).namespaces[c.tables.namespaces.length]? =
        some ⟨strncpy nsNameLen name, type, parent, [], []⟩ :=
      addNamespace_namespaces.mpr (.inl ⟨rfl, rfl⟩)
    obtain ⟨cap, hsealed⟩ := Option.isSome_iff_exists.mp (sealNs_isSome
      (ns_nsPtr_andperm (show Meets (dataPerms &&& nsPermsOwnMask) permLoad by decide) hlast) htype)
    refine .inr ⟨by rw [hs.nextSpace]; exact hroom,
      addNamespace c.tables p ⟨strncpy nsNameLen name, type, parent, [], []⟩, cap,
      by simp [addNamespace], rfl, ?_, ?_⟩
    · simp only [addNamespace] at hsealed
      simp [Tables.newNamespace, hparams, unsealNs_eq htag hseal, hparent, Tables.allocateNamespace,
        Nat.not_le.mpr hroom, hopen, addNamespace, hsealed]
    · simp only [addNamespace] at hsealed
      simp [Counted.newNamespace, hparams, unsealNs_eq htag hseal, hparent,
        Counted.allocateNamespace, EntryTable.newEntry, hs.notFullSpace, hs.nextSpace, hroom,
        Nat.not_le.mpr hroom, hopen, addNamespace, hsealed]
  · refine .inl ⟨by rw [hs.nextSpace]; exact Nat.not_lt.mp hroom, ?_, ?_⟩
    · simp [Tables.newNamespace, hparams, unsealNs_eq htag hseal, Tables.allocateNamespace,
        Nat.not_lt.mp hroom]
    · simp [Counted.newNamespace, hparams, unsealNs_eq htag hseal, hparent,
        Counted.allocateNamespace, EntryTable.newEntry, hs.notFullSpace, hs.nextSpace, hroom]

/-- `cocreate` with the counters. -/
theorem counted_create (hs : Sound c) (ht : TreeOk c.tables)
    (hvalid : c.tables.validateCocreateArgs args = some true) :
    CountedEffect c (.cocreate args) (c.namespaceCreate args) := by
  have hhandle : c.tables.handle (.cocreate args) = c.tables.namespaceCreate args := by
    simp [Tables.handle, Tables.validated, hvalid]
  by_cases hwr : Meets args.nsCap.perms nsPermWr
  · cases hlookup : c.tables.lookupNamespace args.nsName args.nsCap with
    | none =>
      simp only [Counted.namespaceCreate, counted_lookupNamespace hs, hwr, hlookup,
        not_true_eq_false, if_false, orFault_none, error_bind]
      exact .down _ (by simp [hhandle, Tables.namespaceCreate, hwr, hlookup])
    | some child =>
      by_cases hnull : child.target = none
      · -- No child has that name, so `new_namespace` is called.
        obtain rfl := lookupNamespace_null hlookup hnull
        obtain ⟨⟨p, space⟩, hopen, -⟩ := Option.bind_eq_some_iff.mp hlookup
        simp only [Tables.namespaceCreate, hwr, hlookup, not_true_eq_false, if_false, hnull, ne_eq,
          Option.bind_eq_bind, Option.bind_some] at hhandle
        simp only [Counted.namespaceCreate, counted_lookupNamespace hs, hwr, hlookup, hnull, ne_eq,
          not_true_eq_false, if_false, orFault_some, ok_bind]
        cases hparams : c.tables.validateNscreateParams args.nsCap args.nsType args.nsName with
        | none =>
          simp only [Counted.newNamespace, hparams, orFault_none, error_bind]
          exact .down _ (by simp [hhandle, Tables.newNamespace, hparams])
        | some valid =>
          cases valid with
          | false =>
            simp only [Counted.newNamespace, hparams, orFault_some, ok_bind, if_true]
            exact .kept _ _ (by simp [hhandle, Tables.newNamespace, hparams])
          | true =>
            have hneeds : NeedsSpace c.tables args := ⟨hvalid, hwr, hlookup, hparams⟩
            rcases counted_newNamespace hs ht hopen hparams with
              ⟨hfull, htables, heq⟩ | ⟨hroom, s, cap, hspaces, hobjects, htables, heq⟩
            · rw [heq, error_bind]
              exact .noSpace args hneeds hfull (by simp [hhandle, htables])
            · rw [heq, ok_bind]
              exact .space args p s cap hneeds hroom (by simp [hhandle, htables]) hspaces
                (by rw [hobjects])
      · -- The child that was found is sealed again. The counters are not used.
        simp only [Counted.namespaceCreate, counted_lookupNamespace hs, hwr, hlookup, hnull, ne_eq,
          not_true_eq_false, not_false_eq_true, if_true, if_false, orFault_some, ok_bind]
        cases hcreate : c.tables.namespaceCreate args with
        | none => exact .down _ (hhandle.trans hcreate)
        | some q =>
          obtain ⟨s, reply⟩ := q
          obtain rfl : s = c.tables := namespaceCreate_found hwr hlookup hnull hcreate
          exact .kept _ _ (hhandle.trans hcreate)
  · simp only [Counted.namespaceCreate, hwr, not_false_eq_true, if_true]
    exact .kept _ _ (by simp [hhandle, Tables.namespaceCreate, hwr])

end Create

/-! ### The other requests -/

section Others
variable {c : Counted} {s s' : Tables} {r : Request} {reply : Reply}

/-- The other requests make no entries. -/
theorem lengths_effect (hr : MakesNothing r) (he : Effect s r s' reply) :
    s'.namespaces.length = s.namespaces.length ∧ s'.nsobjects.length = s.nsobjects.length := by
  cases he with
  | inserted args p space cap => exact absurd rfl (hr args ⟨.null, [], .root⟩).1
  | created args p space parent cap =>
    exact absurd rfl (hr ⟨.null, [], .null, .commap, .null⟩ args).2
  | deleted args p i space o => simp [removeObject]
  | updated args i o cap => simp [fillObject]
  | dropped args i space => simp [dropNamespace]
  | _ => exact ⟨rfl, rfl⟩

theorem counted_others (hr : MakesNothing r) {answer : Option (Tables × Reply)}
    (h : c.tables.handle r = answer) : CountedEffect c r (c.others answer) := by
  cases answer with
  | none => exact .down r h
  | some q =>
    obtain ⟨s, reply⟩ := q
    obtain ⟨hspaces, hobjects⟩ := lengths_effect hr (handle_effect h)
    exact .other r s reply c.nsobjectTable.count h hr hspaces hobjects

theorem counted_delete (hs : Sound c) {args : ObjectArgs}
    (hvalid : c.tables.validateCodeleteArgs args = some true) :
    CountedEffect c (.codelete args) (c.namespaceObjectDelete args) := by
  have hhandle : c.tables.handle (.codelete args) = c.tables.namespaceObjectDelete args := by
    simp [Tables.handle, Tables.validated, hvalid]
  by_cases hperm : Meets args.nsobj.perms nsobjPermD
  · simp only [Counted.namespaceObjectDelete, hperm, not_true_eq_false, if_false, walkObjects_eq hs]
    cases hopen : c.tables.openNs args.nsCap with
    | none =>
      have hlookup {name : List UInt8} {type : NsobjectType} :
          c.tables.lookupNsobject name type args.nsCap = none := by
        simp [Tables.lookupNsobject, hopen]
      refine .down _ ?_
      rw [hhandle]
      simp only [Tables.namespaceObjectDelete, hperm, not_true_eq_false, if_false, hlookup]
      cases c.tables.nsobj (unsealNsobj args.nsobj) <;> rfl
    | some q =>
      simp only [Option.map_some, orFault_some, ok_bind]
      cases hdelete : c.tables.namespaceObjectDelete args with
      | none => exact .down _ (hhandle.trans hdelete)
      | some q =>
        obtain ⟨s, reply⟩ := q
        have hanswer := hhandle.trans hdelete
        have hkind : MakesNothing (.codelete args) := by simp [MakesNothing]
        obtain ⟨hspaces, hobjects⟩ := lengths_effect hkind (handle_effect hanswer)
        simp only [Counted.others, orFault_some, ok_bind]
        -- Only a delete that succeeds counts down.
        split
        · exact .other _ s reply _ hanswer hkind hspaces hobjects
        · exact .other _ s reply c.nsobjectTable.count hanswer hkind hspaces hobjects
  · simp only [Counted.namespaceObjectDelete, hperm, not_false_eq_true, if_true]
    exact .kept _ _ (by simp [hhandle, Tables.namespaceObjectDelete, hperm])

theorem counted_drop (hs : Sound c) {args : SpaceArgs}
    (hvalid : c.tables.validateCodropArgs args = some true) :
    CountedEffect c (.codrop args) (c.namespaceDrop args) := by
  have hhandle : c.tables.handle (.codrop args) = c.tables.namespaceDrop args := by
    simp [Tables.handle, Tables.validated, hvalid]
  by_cases hown : Meets args.nsCap.perms nsPermsOwn
  · simp only [Counted.namespaceDrop, hown, not_true_eq_false, if_false, walkNamespaces_eq hs]
    cases hopen : c.tables.openNs args.nsCap with
    | none => exact .down _ (by simp [hhandle, Tables.namespaceDrop, hown, hopen])
    | some q =>
      obtain ⟨i, space⟩ := q
      simp only [Option.map_some, orFault_some, ok_bind]
      cases hparent : c.tables.openNs space.parent with
      | none =>
        exact .down _ (by simp [hhandle, Tables.namespaceDrop, hown, hopen, hparent,
          Tables.isChildNamespace])
      | some q =>
        simp only [Option.map_some, orFault_some, ok_bind]
        cases hchild : c.tables.isChildNamespace space.name space.parent with
        | none => exact .down _ (by simp [hhandle, Tables.namespaceDrop, hown, hopen, hchild])
        | some child =>
          cases child with
          | false =>
            exact .kept _ _ (by simp [hhandle, Tables.namespaceDrop, hown, hopen, hchild])
          | true => exact counted_others (by simp [MakesNothing]) hhandle
  · simp only [Counted.namespaceDrop, hown, not_false_eq_true, if_true]
    exact .kept _ _ (by simp [hhandle, Tables.namespaceDrop, hown])

/-- The validator of a request. -/
theorem counted_validated {valid : Option Bool} {handler : Option (Tables × Reply)}
    {counted : Except Fault (Counted × Reply)}
    (hhandle : c.tables.handle r = c.tables.validated valid handler)
    (h : valid = some true → CountedEffect c r counted) :
    CountedEffect c r (c.validated valid counted) := by
  cases valid with
  | none => exact .down _ hhandle
  | some valid =>
    cases valid with
    | false => exact .kept _ _ hhandle
    | true => exact h rfl

/-- What a request does to the tables and the counters. -/
theorem counted_effect (hs : Sound c) (ht : TreeOk c.tables) (r : Request) :
    CountedEffect c r (c.handle r) := by
  cases r with
  | coinsert args => exact counted_validated rfl (counted_insert hs)
  | codelete args => exact counted_validated rfl (counted_delete hs)
  | cocreate args => exact counted_validated rfl (counted_create hs ht)
  | codrop args => exact counted_validated rfl (counted_drop hs)
  | coupdate args => exact counted_others (by simp [MakesNothing]) rfl
  | coselect args =>
    refine counted_validated rfl fun hvalid => ?_
    have hhandle : c.tables.handle (.coselect args) = c.tables.namespaceObjectSelect args := by
      simp [Tables.handle, Tables.validated, hvalid]
    rw [walkObjects_eq hs]
    cases hopen : c.tables.openNs args.nsCap with
    | none =>
      exact .down _ (by simp [hhandle, Tables.namespaceObjectSelect, Tables.lookupNsobject, hopen])
    | some q => exact counted_others (by simp [MakesNothing]) hhandle

end Others

/-! ### Runs -/

/-- The request comes to `new_nsobject_entry` or `new_namespace_entry` when no entry is left. -/
def LacksEntry (c : Counted) : Request → Prop
  | .coinsert args => NeedsObject c.tables args ∧ c.tables.maxNsobjects ≤ c.nsobjectTable.next
  | .cocreate args => NeedsSpace c.tables args ∧ c.tables.maxNamespaces ≤ c.namespaceTable.next
  | _ => False

/-- The request touches no entry behind the end of a table. When it lacks an entry, it is answered
with an error, and the lists and the counters stay as they were. -/
def CleanAt (c : Counted) (r : Request) : Prop :=
  (∀ i, c.handle r ≠ .error (.entry i)) ∧
  (LacksEntry c r → ∃ error, c.handle r = .ok (c, .err error))

/-- Every member of a list designates an entry of its table. -/
def MembersOk (c : Counted) : Prop :=
  ∀ (p : Nat) (space : Namespace), c.tables.namespaces[p]? = some space →
    c.nullObjects p = 0 ∧ c.nullSpaces p = 0 ∧
    (∀ i ∈ space.objects, i < c.tables.nsobjects.length ∧ i < c.tables.maxNsobjects) ∧
    ∀ i ∈ space.namespaces, i < c.tables.namespaces.length ∧ i < c.tables.maxNamespaces

/-- The tables are within their capacities. -/
def WithinMax (c : Counted) : Prop :=
  c.tables.namespaces.length ≤ c.tables.maxNamespaces ∧
    c.tables.nsobjects.length ≤ c.tables.maxNsobjects

section Runs
variable {maxNamespaces maxNsobjects : Nat} {c c' : Counted} {r : Request} {reply : Reply}
  {handles : List UInt8 → Option { handle : NsCap // handle.tag = true }}

theorem sound_init : Sound (initCounted maxNamespaces maxNsobjects handles) where
  nextSpace := rfl
  nextObject := by simp [initCounted, initTables]
  notFullSpace := rfl
  notFullObject := rfl
  noNullObject _ := rfl
  noNullSpace _ := rfl

/-- An answered request does to the tables what `Tables.handle` says, and keeps them sound. -/
theorem sound_effect (hs : Sound c) (he : CountedEffect c r (.ok (c', reply))) :
    Sound c' ∧ c.tables.handle r = some (c'.tables, reply) := by
  cases he with
  | kept _ _ h => exact ⟨hs, h⟩
  | object args p s cap hneeds hroom h hspaces hobjects =>
    exact ⟨⟨hs.nextSpace.trans hspaces.symm, by rw [hobjects, hs.nextObject], hs.notFullSpace, rfl,
      hs.noNullObject, hs.noNullSpace⟩, h⟩
  | space args p s cap hneeds hroom h hspaces hobjects =>
    exact ⟨⟨by rw [hspaces, hs.nextSpace], hs.nextObject.trans hobjects.symm, rfl, hs.notFullObject,
      hs.noNullObject, hs.noNullSpace⟩, h⟩
  | other _ s _ count h hkind hspaces hobjects =>
    exact ⟨⟨hs.nextSpace.trans hspaces.symm, hs.nextObject.trans hobjects.symm, hs.notFullSpace,
      hs.notFullObject, hs.noNullObject, hs.noNullSpace⟩, h⟩

theorem handle_of_step (h : c.step r = some c') : ∃ reply, c.handle r = .ok (c', reply) := by
  unfold Counted.step at h
  split at h
  · rename_i c₁ reply heq
    cases h
    exact ⟨reply, heq⟩
  · cases h

/-- The states of a run are sound, and their tables are those of a run without the counters. -/
theorem sound_reach {ok : Counted → Request → Prop}
    (h : Reach Counted.step ok (initCounted maxNamespaces maxNsobjects handles) c) :
    Sound c ∧
      Reach Tables.step anyAct (initTables maxNamespaces maxNsobjects handles) c.tables := by
  induction h with
  | init => exact ⟨sound_init, .init⟩
  | next r _ _ hs ih =>
    obtain ⟨hsound, hreach⟩ := ih
    obtain ⟨reply, hhandle⟩ := handle_of_step hs
    have he := counted_effect hsound (treeOk_reach hreach) r
    rw [hhandle] at he
    obtain ⟨hsound', htables⟩ := sound_effect hsound he
    exact ⟨hsound', .next r hreach trivial (by simp [Tables.step, htables])⟩

/-- A request that lacks an entry goes behind the end of the table. -/
theorem handle_of_lacksEntry (hs : Sound c) (ht : TreeOk c.tables) (h : LacksEntry c r) :
    ∃ i, c.handle r = .error (.entry i) := by
  cases r with
  | coinsert args =>
    obtain ⟨⟨hvalid, hwr, hin, hparams⟩, hfull⟩ := h
    rcases counted_newNsobject hs hparams with ⟨-, -, heq⟩ | ⟨hroom, -⟩
    · refine ⟨c.nsobjectTable.next, ?_⟩
      simp [Counted.handle, Counted.validated, hvalid, Counted.namespaceObjectInsert, hwr,
        counted_inNamespace hs, hin, heq]
    · omega
  | cocreate args =>
    obtain ⟨⟨hvalid, hwr, hlookup, hparams⟩, hfull⟩ := h
    obtain ⟨⟨p, space⟩, hopen, -⟩ := Option.bind_eq_some_iff.mp hlookup
    rcases counted_newNamespace hs ht hopen hparams with ⟨-, -, heq⟩ | ⟨hroom, -⟩
    · refine ⟨c.namespaceTable.next, ?_⟩
      simp [Counted.handle, Counted.validated, hvalid, Counted.namespaceCreate, hwr,
        counted_lookupNamespace hs, hlookup, Cap.null, heq]
    · omega
  | _ => exact h.elim

theorem lacksEntry_of_handle (hs : Sound c) (ht : TreeOk c.tables) {i : Nat}
    (h : c.handle r = .error (.entry i)) : LacksEntry c r := by
  have he := counted_effect hs ht r
  rw [h] at he
  cases he with
  | noObject args hneeds hfull => exact ⟨hneeds, hfull⟩
  | noSpace args hneeds hfull => exact ⟨hneeds, hfull⟩

theorem max_effect {s s' : Tables} (he : Effect s r s' reply) :
    s'.maxNamespaces = s.maxNamespaces ∧ s'.maxNsobjects = s.maxNsobjects := by
  cases he <;> exact ⟨rfl, rfl⟩

/-- The tables never outgrow their capacities. -/
theorem withinMax_reach {ok : Counted → Request → Prop} (hspaces : 1 ≤ maxNamespaces)
    (hobjects : serviceNames.length ≤ maxNsobjects)
    (h : Reach Counted.step ok (initCounted maxNamespaces maxNsobjects handles) c) :
    WithinMax c := by
  induction h with
  | init =>
    refine ⟨hspaces, ?_⟩
    simpa [initCounted, initTables] using hobjects
  | next r hreach _ hs ih =>
    obtain ⟨hsound, htables⟩ := sound_reach hreach
    obtain ⟨reply, hhandle⟩ := handle_of_step hs
    have he := counted_effect hsound (treeOk_reach htables) r
    rw [hhandle] at he
    obtain ⟨hmax, hmax'⟩ := max_effect (handle_effect (sound_effect hsound he).2)
    unfold WithinMax at ih ⊢
    rw [hmax, hmax']
    cases he with
    | kept _ _ _ => exact ih
    | object args p s cap _ hroom _ hspaces hobjects =>
      rw [hsound.nextObject] at hroom
      simp only [hspaces, hobjects]
      omega
    | space args p s cap _ hroom _ hspaces hobjects =>
      rw [hsound.nextSpace] at hroom
      simp only [hspaces, hobjects]
      omega
    | other _ s _ count _ _ hspaces hobjects =>
      simp only [hspaces, hobjects]
      exact ih

/-- In every run, whatever its length, the members of the lists have entries. A request is handled
cleanly if and only if it does not come to a table in which no entry is left. -/
theorem exhaustion_clean_iff (hspaces : 1024 ≤ maxNamespaces) (hobjects : 2048 ≤ maxNsobjects)
    (h : Reach Counted.step anyAct (initCounted maxNamespaces maxNsobjects handles) c)
    (r : Request) : MembersOk c ∧ (CleanAt c r ↔ ¬LacksEntry c r) := by
  obtain ⟨hsound, htables⟩ := sound_reach h
  have ht := treeOk_reach htables
  have hok := tablesOk_reach htables
  have hservices : serviceNames.length ≤ maxNsobjects := Nat.le_trans (by decide) hobjects
  have hmax : WithinMax c := withinMax_reach (by omega) hservices h
  refine ⟨fun p space hp => ⟨hsound.noNullObject p, hsound.noNullSpace p, fun i hi => ?_,
    fun i hi => ?_⟩, ?_⟩
  · have hlt := hok.listed p space i hp hi
    exact ⟨hlt, Nat.lt_of_lt_of_le hlt hmax.2⟩
  · have hlt := (hok.child p space i hp hi).2
    exact ⟨hlt, Nat.lt_of_lt_of_le hlt hmax.1⟩
  · constructor
    · rintro ⟨hclean, -⟩ hlacks
      obtain ⟨i, hfault⟩ := handle_of_lacksEntry hsound ht hlacks
      exact hclean i hfault
    · intro henough
      exact ⟨fun i hfault => henough (lacksEntry_of_handle hsound ht hfault),
        fun hlacks => absurd hlacks henough⟩

end Runs

/-- The smallest tables that nsd sets up, for 1024 processes. -/
def smallCounted : Counted := initCounted 1024 2048 fun _ => none

theorem exhaustion_clean_iff_fresh :
    MembersOk smallCounted ∧ CleanAt smallCounted (.coinsert coportA) := by
  have henough : ¬LacksEntry smallCounted (.coinsert coportA) := by
    rintro ⟨-, hfull⟩
    exact absurd hfull (by decide)
  obtain ⟨hmembers, hclean⟩ := exhaustion_clean_iff (Nat.le_refl 1024) (Nat.le_refl 2048)
    (.init : Reach Counted.step anyAct (initCounted 1024 2048 fun _ => none) smallCounted)
    (.coinsert coportA)
  exact ⟨hmembers, hclean.mpr henough⟩

/-! ### A run that fills the table of namespaces -/

section Chain
variable {c : Counted} {k : Nat}

/-- The request only creates. -/
def Creates (_ : Counted) (r : Request) : Prop := ∃ args, r = .cocreate args

/-- A public namespace `a` in namespace `k`, requested by its owner. -/
def chainArgs (k : Nat) : SpaceArgs where
  nsCap := ((nsPtr k).andperm nsPermsOwnMask).sealWith (if k = 0 then .rootNscap else .publicNscap)
  nsName := asciiBytes ['a']
  nsType := .public_

/-- Namespace `k` is the last one, and it has no children. -/
def ChainEnd (s : Tables) (k : Nat) : Prop :=
  s.namespaces.length = k + 1 ∧ ∃ n, s.namespaces[k]? = some n ∧ n.namespaces = []

theorem needsSpace_of_chainEnd {s : Tables} (h : ChainEnd s k) : NeedsSpace s (chainArgs k) := by
  obtain ⟨hlen, n, hn, hempty⟩ := h
  have hot : nsOtypeToType (if k = 0 then .rootNscap else .publicNscap) ≠ .invalidNs := by
    split <;> decide
  have hcap : s.validNamespaceCap (chainArgs k).nsCap = some true := by
    simp [Tables.validNamespaceCap, chainArgs, Cap.sealWith, Cap.andperm, nsPtr, Tables.inNsTable,
      Tables.getNsType, hlen, hot]
  have hwr : Meets (chainArgs k).nsCap.perms nsPermWr := by
    show Meets (dataPerms &&& nsPermsOwnMask) nsPermWr
    decide
  have hload : Meets (chainArgs k).nsCap.perms permLoad := by
    show Meets (dataPerms &&& nsPermsOwnMask) permLoad
    decide
  have hloadCap : Meets (chainArgs k).nsCap.perms permLoadCap := by
    show Meets (dataPerms &&& nsPermsOwnMask) permLoadCap
    decide
  have hname : validNsName (asciiBytes ['a']) = true := by decide
  have hopen : s.openNs (chainArgs k).nsCap = some (k, n) := by
    refine openNs_eq_some.mpr ⟨rfl, ?_, hload, hloadCap, rfl, hn⟩
    rintro ot ⟨⟩
    exact hot
  refine ⟨?_, hwr, ?_, ?_⟩
  · simp [Tables.validateCocreateArgs, hcap]
    simp [chainArgs, hname]
  · simp [Tables.lookupNamespace, hopen, hempty]
  · simp [Tables.validateNscreateParams, hcap, hwr]
    simp [chainArgs, hname, validNsType]

/-- The next namespace of the chain. -/
theorem chain_step (hs : Sound c) (ht : TreeOk c.tables) (h : ChainEnd c.tables k)
    (hroom : k + 1 < c.tables.maxNamespaces) :
    ∃ c', c.step (.cocreate (chainArgs k)) = some c' ∧ ChainEnd c'.tables (k + 1) ∧
      c'.tables.maxNamespaces = c.tables.maxNamespaces := by
  have hneeds := needsSpace_of_chainEnd h
  obtain ⟨hlen, n, hn, hempty⟩ := h
  obtain ⟨hvalid, hwr, hlookup, hparams⟩ := hneeds
  obtain ⟨⟨p, space⟩, hopen, -⟩ := Option.bind_eq_some_iff.mp hlookup
  rcases counted_newNamespace hs ht hopen hparams with
    ⟨hfull, -⟩ | ⟨-, s, cap, hspaces, -, htables, heq⟩
  · rw [hs.nextSpace, hlen] at hfull
    omega
  · have hcounted : c.handle (.cocreate (chainArgs k)) = .ok ({ c with
        tables := s
        namespaceTable := ⟨c.namespaceTable.next + 1, c.namespaceTable.count + 1, false⟩
        nspaces := bump c.nspaces p }, .ok cap) := by
      simp [Counted.handle, Counted.validated, hvalid, Counted.namespaceCreate, hwr,
        counted_lookupNamespace hs, hlookup, Cap.null, heq]
    have he := counted_effect hs ht (.cocreate (chainArgs k))
    rw [hcounted] at he
    have heffect : Effect c.tables (.cocreate (chainArgs k)) s (.ok cap) :=
      handle_effect (sound_effect hs he).2
    refine ⟨_, by rw [Counted.step, hcounted], ⟨by simp [hspaces, hlen], ?_⟩,
      (max_effect heffect).1⟩
    cases heffect with
    | found => simp at hspaces
    | created _ q space' parent =>
      exact ⟨_, addNamespace_namespaces.mpr (.inl ⟨hlen.symm, rfl⟩), rfl⟩

/-- A chain of namespaces, as long as the table has entries for them. -/
theorem exists_chain (k : Nat) (hk : k < 1024) :
    ∃ c, Reach Counted.step Creates smallCounted c ∧ ChainEnd c.tables k ∧
      c.tables.maxNamespaces = 1024 := by
  induction k with
  | zero => exact ⟨smallCounted, .init, ⟨rfl, _, rfl, rfl⟩, rfl⟩
  | succ k ih =>
    obtain ⟨c, hreach, hend, hmax⟩ := ih (by omega)
    obtain ⟨hsound, htables⟩ := sound_reach hreach
    obtain ⟨c', hstep, hend', hmax'⟩ := chain_step hsound (treeOk_reach htables) hend (by omega)
    exact ⟨c', .next _ hreach ⟨_, rfl⟩ hstep, hend', hmax'.trans hmax⟩

/-- After 1023 `cocreate` requests, each in the namespace of the one before, the table is full. The
next one is not refused. It goes to the entry behind the end of the table, and nsd is gone. -/
theorem full_table_not_clean :
    ∃ c, Reach Counted.step Creates smallCounted c ∧ c.tables.namespaces.length = 1024 ∧
      c.tables.maxNamespaces = 1024 ∧ ¬CleanAt c (.cocreate (chainArgs 1023)) := by
  obtain ⟨c, hreach, hend, hmax⟩ := exists_chain 1023 (by decide)
  obtain ⟨hsound, htables⟩ := sound_reach hreach
  have hlacks : LacksEntry c (.cocreate (chainArgs 1023)) :=
    ⟨needsSpace_of_chainEnd hend, by rw [hsound.nextSpace, hend.1, hmax]⟩
  obtain ⟨i, hfault⟩ := handle_of_lacksEntry hsound (treeOk_reach htables) hlacks
  exact ⟨c, hreach, hend.1, hmax, fun hclean => hclean.1 i hfault⟩

end Chain

end Comsg.Proofs.Nsd
