import Comsg.Nsd.Workers
import Comsg.Proofs.Nsd.Rights

/-!
# `Comsg.Proofs.Nsd.Coinsert`: the same name inserted on several threads

Between the test in `in_namespace` and the store of the name in the new entry, the name is not
in the namespace yet. When no other request runs its test in between, and the types are valid,
one request at most inserts the name, and the tables are what its insertion makes of them
(`coinsert_at_most_once`). Two requests that both pass the test first both succeed
(`coinsert_twice`).
-/

set_option autoImplicit false

namespace Comsg.Proofs.Nsd

open Comsg.Lib
open Comsg.Nsd
open Comsg.Nsd.Tables (nsobjPtr)

/-- The request is for the name `n` in namespace `p`. -/
def InsertsName (p : Nat) (n : List UInt8) (args : ObjectArgs) : Prop :=
  args.nsCap.target = some (.ns p) ∧ nsName args.nsobjName = n

instance (p : Nat) (n : List UInt8) (args : ObjectArgs) : Decidable (InsertsName p n args) :=
  inferInstanceAs (Decidable (_ ∧ _))

/-- The next step is the test in `in_namespace`. -/
def testsName : InsertPhase → Bool
  | .validated => true
  | _          => false

/-- The request has passed the test, and the name is not stored. -/
def namePending : InsertPhase → Bool
  | .absent | .checked | .listed _ | .typed _ => true
  | .created obj                              => obj.target.isNone
  | _                                         => false

/-- The request has passed the test. -/
def pastTest : InsertPhase → Bool
  | .absent | .checked | .listed _ | .typed _ | .created _ => true
  | .replied reply                                         => reply.isOk
  | _                                                      => false

/-- The first request is at its test, and the second one has still to store the name. -/
def insertsConflict (x y : ObjectArgs × InsertPhase) : Bool := testsName x.2 && namePending y.2

/-- The requests are for the name `n` in namespace `p` and have a valid type, and `in_namespace` is
called only while no other request is between this test and the store of the name. -/
def InsertedAlone (p : Nat) (n : List UInt8) : Inserts → PoolAct ObjectArgs → Prop :=
  OneAtATime (fun args => InsertsName p n args ∧ validNsobjType args.nsobjType = true)
    insertsConflict

/-- No object of namespace `p` has the name. -/
def NoObjectNamed (t : Tables) (p : Nat) (name : List UInt8) : Prop :=
  ∃ space : Namespace, t.namespaces[p]? = some space ∧
    ∀ i ∈ space.objects, t.objectNamed name i = false

/-- The tables while a request that has passed the test of `t` goes on. -/
def InsertedSoFar (t : Tables) (p : Nat) (s : Tables) (args : ObjectArgs) : InsertPhase → Prop
  | .absent | .checked => s = t
  | .listed i => i = t.nsobjects.length ∧ s = addObject t p zeroNsobject
  | .typed i => i = t.nsobjects.length ∧
    s = addObject t p { zeroNsobject with type := args.nsobjType }
  | .created obj => (obj = .null ∧ s = t) ∨
    (obj = (nsobjPtr t.nsobjects.length).andperm nsobjPermsOwnMask ∧
      s = addObject t p ⟨strncpy nsNameLen args.nsobjName, args.nsobjType, .null⟩)
  | .replied _ => s = addObject t p (insertedObject args)
  | _ => True

section Steps
variable {t s s' : Tables} {p : Nat} {n : List UInt8} {args : ObjectArgs}
  {phase phase' : InsertPhase}

theorem setType_addObject {o : Nsobject} {type : NsobjectType} :
    (addObject t p o).setType t.nsobjects.length type = addObject t p { o with type := type } := by
  simp [addObject, Tables.setType, modify_concat_length]

theorem setName_addObject {o : Nsobject} {name : List UInt8} :
    (addObject t p o).setName t.nsobjects.length name =
      addObject t p { o with name := strncpy nsNameLen name } := by
  simp [addObject, Tables.setName, modify_concat_length]

/-- A store through `NULL` faults. -/
theorem storeHandle_null (htype : validNsobjType args.nsobjType = true) :
    s.storeHandle args .null = none := by
  unfold Tables.storeHandle
  cases ht : args.nsobjType with
  | commap | coservice | coport | reservation => simp [nsobj_null]
  | invalidNsobj | other v hv => simp [ht, validNsobjType] at htype

/-- The store of the handle in the new object. -/
theorem storeHandle_addObject {reply : Reply} (htype : validNsobjType args.nsobjType = true)
    (h : (addObject t p ⟨strncpy nsNameLen args.nsobjName, args.nsobjType, .null⟩).storeHandle args
      ((nsobjPtr t.nsobjects.length).andperm nsobjPermsOwnMask) = some (s', reply)) :
    s' = addObject t p (insertedObject args) ∧ reply.isOk = true := by
  unfold Tables.storeHandle at h
  cases ht : args.nsobjType with
  | commap | coservice | coport =>
    simp only [ht, nsobj_addObject, setObj_addObject, Option.bind_eq_bind, Option.bind_some,
      Option.some.injEq, Prod.mk.injEq] at h
    obtain ⟨rfl, rfl⟩ := h
    simp [insertedObject, insertedHandle, ht, Reply.isOk]
  | reservation =>
    have hseal := sealNsobj_reservation
      (s := addObject t p ⟨strncpy nsNameLen args.nsobjName, .reservation, .null⟩)
      nsobj_addObject rfl
    simp only [ht, nsobj_addObject, setObj_addObject, hseal, Option.bind_eq_bind,
      Option.bind_some, Option.some.injEq, Prod.mk.injEq] at h
    obtain ⟨rfl, rfl⟩ := h
    simp [insertedObject, insertedHandle, ht, Reply.isOk]
  | invalidNsobj | other v hv => simp [ht, validNsobjType] at htype

/-- Before the test is passed, a request changes nothing. It passes the test in `in_namespace`, when
no object and no child has the name. -/
theorem insertAdvance_outside (hout : pastTest phase = false)
    (h : s.insertAdvance args phase = some (s', phase')) :
    s' = s ∧ (pastTest phase' = true → phase = .validated ∧ phase' = .absent ∧
      s.inNamespace args.nsobjName args.nsCap = some false) := by
  cases phase with
  | arrived =>
    obtain ⟨valid, -, h⟩ := Option.bind_eq_some_iff.mp h
    split at h <;> cases h <;> exact ⟨rfl, fun hin => by cases hin⟩
  | validated =>
    simp only [Tables.insertAdvance] at h
    split at h
    · cases h
      exact ⟨rfl, fun hin => by cases hin⟩
    · obtain ⟨present, hpresent, h⟩ := Option.bind_eq_some_iff.mp h
      split at h
      · cases h
        exact ⟨rfl, fun hin => by cases hin⟩
      · rename_i habsent
        cases h
        rw [Bool.not_eq_true] at habsent
        exact ⟨rfl, fun _ => ⟨rfl, rfl, habsent ▸ hpresent⟩⟩
  | replied reply => cases h
  | absent | checked | listed i | typed i | created obj => cases hout

theorem noObjectNamed_of_inNamespace (htarget : args.nsCap.target = some (.ns p))
    (h : s.inNamespace args.nsobjName args.nsCap = some false) :
    NoObjectNamed s p args.nsobjName := by
  obtain ⟨⟨q, space⟩, hopen, heq⟩ := Option.bind_eq_some_iff.mp h
  simp only [Option.some.injEq, Bool.or_eq_false_iff, List.any_eq_false, Bool.not_eq_true] at heq
  obtain ⟨htarget', hspace⟩ := openNs_target hopen
  obtain rfl : p = q := by simpa [htarget] using htarget'
  exact ⟨space, hspace, heq.1⟩

/-- The steps of a request that has passed the test. -/
theorem insertAdvance_inside (hname : InsertsName p n args)
    (htype : validNsobjType args.nsobjType = true) (hin : pastTest phase = true)
    (hso : InsertedSoFar t p s args phase) (h : s.insertAdvance args phase = some (s', phase')) :
    pastTest phase' = true ∧ InsertedSoFar t p s' args phase' := by
  cases phase with
  | absent =>
    obtain ⟨valid, -, h⟩ := Option.bind_eq_some_iff.mp h
    split at h
    · cases h
      exact ⟨rfl, .inl ⟨rfl, hso⟩⟩
    · cases h
      exact ⟨rfl, hso⟩
  | checked =>
    obtain ⟨⟨s₁, i⟩, halloc, h⟩ := Option.bind_eq_some_iff.mp h
    obtain ⟨q, space, hopen, rfl, rfl⟩ := allocateNsobject_eq halloc
    obtain rfl : p = q := by simpa [hname.1] using (openNs_target hopen).1
    cases h
    cases (show s = t from hso)
    exact ⟨rfl, rfl, rfl⟩
  | listed i =>
    obtain ⟨rfl, rfl⟩ := hso
    cases h
    exact ⟨rfl, rfl, setType_addObject⟩
  | typed i =>
    obtain ⟨rfl, rfl⟩ := hso
    cases h
    exact ⟨rfl, .inr ⟨rfl, setName_addObject⟩⟩
  | created obj =>
    obtain ⟨⟨s₁, reply⟩, hstore, h⟩ := Option.bind_eq_some_iff.mp h
    cases h
    rcases hso with ⟨rfl, rfl⟩ | ⟨rfl, rfl⟩
    · rw [storeHandle_null htype] at hstore
      cases hstore
    · obtain ⟨hs, hok⟩ := storeHandle_addObject htype hstore
      exact ⟨hok, hs⟩
  | replied reply => cases h
  | arrived | validated => cases hin

/-- A name that was stored is found. -/
theorem inNamespace_addObject {o : Nsobject} {c : NsCap} {name : List UInt8}
    (htarget : c.target = some (.ns p)) (ho : nsName o.name = nsName name) :
    (addObject t p o).inNamespace name c ≠ some false := by
  intro h
  obtain ⟨⟨q, space⟩, hopen, heq⟩ := Option.bind_eq_some_iff.mp h
  obtain ⟨htarget', hspace⟩ := openNs_target hopen
  obtain rfl : p = q := by simpa [htarget] using htarget'
  obtain ⟨old, -, rfl⟩ := addObject_namespaces.mp hspace
  have hfound : (addObject t p o).objectNamed name t.nsobjects.length = true :=
    objectNamed_iff.mpr ⟨o, by simp [addObject_nsobjects], ho⟩
  simp [hfound] at heq

/-- After the name of a request is stored, the test of another one fails. -/
theorem insertAdvance_shut {args' : ObjectArgs} (hname : InsertsName p n args)
    (hname' : InsertsName p n args') (hin : pastTest phase = true)
    (hso : InsertedSoFar t p s args phase) {ph ph' : InsertPhase}
    (hclear : insertsConflict (args', ph) (args, phase) = false) (hout : pastTest ph = false)
    (h : s.insertAdvance args' ph = some (s', ph')) : pastTest ph' = false := by
  rw [← Bool.not_eq_true]
  intro henter
  obtain ⟨-, htest⟩ := insertAdvance_outside hout h
  obtain ⟨rfl, -, habsent⟩ := htest henter
  have hidle : namePending phase = false := hclear
  obtain ⟨o, rfl, ho⟩ : ∃ o, s = addObject t p o ∧ nsName o.name = nsName args.nsobjName := by
    cases phase with
    | created obj =>
      rcases hso with ⟨rfl, -⟩ | ⟨-, rfl⟩
      · cases hidle
      · exact ⟨_, rfl, cstr_strncpy _ _⟩
    | replied reply => exact ⟨_, hso, cstr_strncpy _ _⟩
    | absent | checked | listed i | typed i => cases hidle
    | arrived | validated => cases hin
  exact inNamespace_addObject hname'.1 (by rw [ho, hname.2, hname'.2]) habsent

end Steps

/-! ### A request that nobody interrupts -/

/-- The handler ends with the `switch` on the object that `new_nsobject` returns. -/
theorem namespaceObjectInsert_eq (t : Tables) (args : ObjectArgs) :
    t.namespaceObjectInsert args =
      if ¬Meets args.nsCap.perms nsPermWr then some (t, .err .eacces)
      else (t.inNamespace args.nsobjName args.nsCap).bind fun present =>
        if present = true then some (t, .err .eexist)
        else (t.newNsobject args.nsobjName args.nsobjType args.nsCap).bind fun x =>
          x.1.storeHandle args x.2 := rfl

/-- `new_nsobject` in steps. -/
theorem newNsobject_alone {t t' : Tables} {args : ObjectArgs} {obj : NsCap}
    (h : t.newNsobject args.nsobjName args.nsobjType args.nsCap = some (t', obj)) :
    Reach insertStep anyAct ⟨t, [(args, .absent)]⟩ ⟨t', [(args, .created obj)]⟩ := by
  obtain ⟨valid, hvalid, h⟩ := Option.bind_eq_some_iff.mp h
  split at h
  · rename_i hno
    cases h
    exact reach_alone .init (by simp [Tables.insertAdvance, hvalid, hno])
  · rename_i hyes
    obtain ⟨⟨t₁, i⟩, halloc, h⟩ := Option.bind_eq_some_iff.mp h
    obtain ⟨p, space, hopen, rfl, rfl⟩ := allocateNsobject_eq halloc
    cases h
    have hzero : t.allocateNsobject args.nsCap zeroNsobject =
        some (addObject t p zeroNsobject, t.nsobjects.length) := by
      simp only [Tables.allocateNsobject] at halloc ⊢
      split at halloc
      · cases halloc
      · rename_i hroom
        rw [if_neg hroom, hopen]
        rfl
    have hchecked : Reach insertStep anyAct ⟨t, [(args, .absent)]⟩ ⟨t, [(args, .checked)]⟩ :=
      reach_alone .init (by simp [Tables.insertAdvance, hvalid, hyes])
    have hlisted : Reach insertStep anyAct ⟨t, [(args, .absent)]⟩
        ⟨addObject t p zeroNsobject, [(args, .listed t.nsobjects.length)]⟩ :=
      reach_alone hchecked (by simp [Tables.insertAdvance, hzero])
    have htyped := reach_alone hlisted rfl
    have hnamed := reach_alone htyped rfl
    rwa [setType_addObject, setName_addObject] at hnamed

/-- A `coinsert` that nobody interrupts does what its handler does. -/
theorem coinsert_alone {t t' : Tables} {args : ObjectArgs} {reply : Reply}
    (h : t.handle (.coinsert args) = some (t', reply)) :
    Reach insertStep anyAct ⟨t, [(args, .arrived)]⟩ ⟨t', [(args, .replied reply)]⟩ := by
  obtain ⟨valid, hvalid, h⟩ := Option.bind_eq_some_iff.mp h
  split at h
  · rename_i hno
    cases h
    exact reach_alone .init (by simp [Tables.insertAdvance, hvalid, hno])
  · rename_i hyes
    have hvalidated : Reach insertStep anyAct ⟨t, [(args, .arrived)]⟩ ⟨t, [(args, .validated)]⟩ :=
      reach_alone .init (by simp [Tables.insertAdvance, hvalid, hyes])
    rw [namespaceObjectInsert_eq] at h
    split at h
    · rename_i hperm
      cases h
      exact reach_alone hvalidated (by simp [Tables.insertAdvance, hperm])
    · rename_i hperm
      obtain ⟨present, hpresent, h⟩ := Option.bind_eq_some_iff.mp h
      split at h
      · rename_i hfound
        cases h
        exact reach_alone hvalidated (by simp [Tables.insertAdvance, hperm, hpresent, hfound])
      · rename_i habsent
        obtain ⟨⟨t₁, obj⟩, hnew, hstore⟩ := Option.bind_eq_some_iff.mp h
        have hpassed : Reach insertStep anyAct ⟨t, [(args, .arrived)]⟩ ⟨t, [(args, .absent)]⟩ :=
          reach_alone hvalidated (by simp [Tables.insertAdvance, hperm, hpresent, habsent])
        exact reach_alone (hpassed.trans (newNsobject_alone hnew))
          (by simp [Tables.insertAdvance, hstore])

/-- The part of `coinsert` behind the test. -/
def insertSection (t : Tables) (p : Nat) (n : List UInt8) :
    ExclusiveSection InsertPhase.arrived Tables.insertAdvance t where
  good args := InsertsName p n args ∧ validNsobjType args.nsobjType = true
  conflicts := insertsConflict
  entered _ := pastTest
  fit args _ := InsertsName p n args ∧ validNsobjType args.nsobjType = true
  holds s args phase := NoObjectNamed t p args.nsobjName ∧ InsertedSoFar t p s args phase
  start_out := rfl
  start_fit h := h
  fit_step h _ := h
  out_step hout h _ := (insertAdvance_outside hout h).1
  enter hfit hout h hin := by
    obtain ⟨hsame, htest⟩ := insertAdvance_outside hout h
    obtain ⟨-, rfl, habsent⟩ := htest hin
    exact ⟨noObjectNamed_of_inNamespace hfit.1.1 habsent, hsame⟩
  stay hfit hin hholds h := by
    obtain ⟨hin', hso⟩ := insertAdvance_inside hfit.1 hfit.2 hin hholds.2 h
    exact ⟨hin', hholds.1, hso⟩
  shut hin hclear hfit hholds hfit' hout h :=
    insertAdvance_shut hfit.1 hfit'.1 hin hholds.2 hclear hout h

/-- The new object is the only one of its name. -/
theorem filter_objectNamed_addObject {t : Tables} {p : Nat} {o : Nsobject} {name : List UInt8}
    (hok : TablesOk t) (hnone : NoObjectNamed t p name) (ho : nsName o.name = nsName name) :
    ∃ space, (addObject t p o).namespaces[p]? = some space ∧
      space.objects.filter ((addObject t p o).objectNamed name) = [t.nsobjects.length] := by
  obtain ⟨space, hspace, habsent⟩ := hnone
  refine ⟨_, addObject_namespaces.mpr ⟨space, hspace, rfl⟩, ?_⟩
  have hnew : (addObject t p o).objectNamed name t.nsobjects.length = true :=
    objectNamed_iff.mpr ⟨o, by simp [addObject_nsobjects], ho⟩
  have hold : ∀ i ∈ space.objects, ¬(addObject t p o).objectNamed name i = true := by
    intro i hi
    have hlt := hok.listed p space i hspace hi
    have hsame : (addObject t p o).objectNamed name i = t.objectNamed name i := by
      simp [Tables.objectNamed, addObject_nsobjects, Nat.ne_of_lt hlt]
    simp [hsame, habsent i hi]
  rw [if_pos rfl]
  show (t.nsobjects.length :: space.objects).filter _ = _
  rw [List.filter_cons_of_pos hnew, List.filter_eq_nil_iff.mpr hold]

section Runs
variable {maxNamespaces maxNsobjects : Nat}
  {handles : List UInt8 → Option { handle : NsCap // handle.tag = true }} {t : Tables} {p : Nat}
  {n : List UInt8} {s : Inserts}

/-- When the tests of the requests for one name run one at a time, one request at most succeeds.
Then the namespace has exactly one object of that name, with the type and the handle of that
request. -/
theorem coinsert_at_most_once
    (ht : Reach Tables.step anyAct (initTables maxNamespaces maxNsobjects handles) t)
    (h : Reach insertStep (InsertedAlone p n) ⟨t, []⟩ s) :
    (∀ (r r' : Nat) args args' cap cap', s.threads[r]? = some (args, .replied (.ok cap)) →
      s.threads[r']? = some (args', .replied (.ok cap')) → r = r') ∧
    ∀ (r : Nat) args cap, s.threads[r]? = some (args, .replied (.ok cap)) →
      ∃ space i o, s.shared.namespaces[p]? = some space ∧
        space.objects.filter (s.shared.objectNamed args.nsobjName) = [i] ∧
        s.shared.nsobjects[i]? = some o ∧ o.type = args.nsobjType ∧
        o.obj = insertedHandle args := by
  have hinv := (insertSection t p n).reach h
  refine ⟨fun r r' args args' cap cap' hr hr' => hinv.one r r' _ _ hr hr' rfl rfl, ?_⟩
  intro r args cap hr
  obtain ⟨hnone, hshared⟩ := hinv.holds r args _ hr rfl
  obtain ⟨space, hspace, hone⟩ := filter_objectNamed_addObject (o := insertedObject args)
    (tablesOk_reach ht) hnone (cstr_strncpy _ _)
  rw [show s.shared = addObject t p (insertedObject args) from hshared]
  exact ⟨space, t.nsobjects.length, insertedObject args, hspace, hone,
    by simp [addObject_nsobjects], rfl, rfl⟩

end Runs

/-- Two requests overlap, and the second one finds the name. -/
theorem coinsert_at_most_once_two :
    ∃ s : Inserts, runFrom insertStep ⟨freshTables, []⟩ [.arrive coportA, .arrive coportA,
        .advance 0, .advance 1, .advance 0, .advance 0, .advance 0, .advance 0, .advance 0,
        .advance 1, .advance 0] = some s ∧
      s.threads[1]? = some (coportA, .replied (.err .eexist)) ∧
      ∃ space i o, s.shared.namespaces[0]? = some space ∧
        space.objects.filter (s.shared.objectNamed coportA.nsobjName) = [i] ∧
        s.shared.nsobjects[i]? = some o ∧ o.obj = clientHandle := by
  obtain ⟨s, hs⟩ : ∃ s, runFrom insertStep ⟨freshTables, []⟩ [.arrive coportA, .arrive coportA,
      .advance 0, .advance 1, .advance 0, .advance 0, .advance 0, .advance 0, .advance 0,
      .advance 1, .advance 0] = some s := Option.isSome_iff_exists.mp (by decide)
  have hsecond : s.threads[1]? = some (coportA, InsertPhase.replied (.err .eexist)) :=
    eq_of_map_runFrom (fun s => s.threads[1]?) hs (by decide)
  have hfirst : s.threads[0]? = some (coportA, InsertPhase.replied (.ok handleA)) :=
    eq_of_map_runFrom (fun s => s.threads[0]?) hs (by decide)
  have hreach : Reach insertStep (InsertedAlone 0 (nsName coportA.nsobjName)) ⟨freshTables, []⟩ s :=
    reach_of_checkAll oneAtATime_of_check _ _ _ (by decide) hs
  obtain ⟨space, i, o, hspace, hone, ho, -, hobj⟩ :=
    (coinsert_at_most_once .init hreach).2 0 coportA _ hfirst
  exact ⟨s, hs, hsecond, space, i, o, hspace, hone, ho, hobj⟩

/-- The capability that the owner of object `i` gets. -/
def ownerHandle (i : Nat) : NsCap :=
  ((nsobjPtr i).andperm nsobjPermsOwnMask).clearperm nsobjPermW

/-- Two requests for one name both pass the test, and both succeed. The namespace has two objects
of that name. -/
theorem coinsert_twice :
    ∃ s : Inserts, Reach insertStep anyAct ⟨freshTables, []⟩ s ∧
      s.threads[0]? = some (coportA, .replied (.ok (ownerHandle 6))) ∧
      s.threads[1]? = some (coportA, .replied (.ok (ownerHandle 7))) ∧
      s.shared.namespaces[0]?.map (fun space =>
        space.objects.filter (s.shared.objectNamed coportA.nsobjName)) = some [7, 6] := by
  obtain ⟨s, hs⟩ : ∃ s, runFrom insertStep ⟨freshTables, []⟩ [.arrive coportA, .arrive coportA,
      .advance 0, .advance 1, .advance 0, .advance 1, .advance 0, .advance 1, .advance 0,
      .advance 1, .advance 0, .advance 1, .advance 0, .advance 1, .advance 0,
      .advance 1] = some s := Option.isSome_iff_exists.mp (by decide)
  exact ⟨s, reach_of_runFrom _ _ _ hs,
    eq_of_map_runFrom (fun s => s.threads[0]?) hs (by decide),
    eq_of_map_runFrom (fun s => s.threads[1]?) hs (by decide),
    eq_of_map_runFrom (fun s => s.shared.namespaces[0]?.map (fun space =>
        space.objects.filter (s.shared.objectNamed coportA.nsobjName))) hs (by decide)⟩

end Comsg.Proofs.Nsd
