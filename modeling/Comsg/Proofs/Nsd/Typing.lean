import Comsg.Proofs.Nsd.Rights

/-!
# `Comsg.Proofs.Nsd.Typing`: the types of the objects

`validate_coupdate_args` tests the type with the mask `RESERVATION | INVALID_NSOBJ`, which has
all bits, so it refuses the type 0 only. It asks for a sealed handle, which a `NULL` with an
object type in it also is. Where an accepted `coupdate` has one of the three types and a handle
(`TypedUpdate`), every listed object is well typed, and its type changes at most once
(`objects_well_typed`).
-/

set_option autoImplicit false

namespace Comsg.Proofs.Nsd

open Comsg.Lib
open Comsg.Nsd

/-- The type of a fulfilled reservation. -/
def Fulfilled (type : NsobjectType) : Prop :=
  type = .commap ∨ type = .coport ∨ type = .coservice

/-- A `coupdate` that its validator accepts has a type that fulfils a reservation, and a
handle. -/
def TypedUpdate (s : Tables) : Request → Prop
  | .coupdate args => s.validateCoupdateArgs args = some true →
    Fulfilled args.nsobjType ∧ args.obj.target ≠ none
  | _ => True

/-- Every object has one of the four types, and a handle unless it is a reservation. -/
structure WellTyped (s : Tables) : Prop where
  type : ∀ p i o, Lists s p i o → o.type = .reservation ∨ Fulfilled o.type
  handle : ∀ p i o, Lists s p i o → o.type ≠ .reservation → o.obj.target ≠ none

/-- The type stays, or a reservation is fulfilled. -/
def TypeKept (type type' : NsobjectType) : Prop :=
  type' = type ∨ (type = .reservation ∧ Fulfilled type')

/-- A handle to object `i` as nsd gives it to the owner: with the right to delete, and sealed as a
reservation or not at all. -/
structure OwnHandle (c : NsCap) (i : Nat) : Prop where
  tag : c.tag = true
  target : c.target = some (.nsobj i)
  size : sizeofNsobject ≤ c.length
  otype : c.otype = none ∨ c.otype = some .reservationNsobj
  load : Meets c.perms permLoad
  permits : Meets c.perms nsobjPermD

section Steps
variable {s s' : Tables} {r : Request} {reply : Reply} {args : ObjectArgs}

theorem fulfilled_of_valid {type : NsobjectType} (h : validNsobjType type = true)
    (hne : type ≠ .reservation) : Fulfilled type := by
  cases type with
  | commap => exact .inl rfl
  | coport => exact .inr (.inl rfl)
  | coservice => exact .inr (.inr rfl)
  | reservation => exact absurd rfl hne
  | invalidNsobj => cases h
  | other v hv => cases h

/-- A `coinsert` that passes its validator has a handle, unless it is for a reservation. -/
theorem validateCoinsertArgs_handle (h : s.validateCoinsertArgs args = some true)
    (hne : args.nsobjType ≠ .reservation) : args.obj.target ≠ none := by
  intro hnull
  obtain ⟨c, -, h⟩ := Option.bind_eq_some_iff.mp h
  obtain ⟨valid, -, h⟩ := Option.bind_eq_some_iff.mp h
  split at h
  · cases h
  · simp [hnull, hne] at h

/-- A request keeps the objects well typed. -/
theorem wellTyped_effect (hok : TablesOk s) (hw : WellTyped s) (hr : TypedUpdate s r)
    (he : Effect s r s' reply) : WellTyped s' := by
  cases he with
  | inserted args p space cap hwr hopen hname htype hobjects hspaces hcap hvalid =>
    have hlists {q i : Nat} {o : Nsobject} :
        Lists (addObject s p (insertedObject args)) q i o ↔ _ :=
      lists_addObject hok (openNs_target hopen).2
    constructor
    · intro q i o hl
      rcases hlists.mp hl with hl | ⟨-, -, rfl⟩
      · exact hw.type q i o hl
      · by_cases hres : args.nsobjType = .reservation
        · exact .inl hres
        · exact .inr (fulfilled_of_valid htype hres)
    · intro q i o hl hne
      rcases hlists.mp hl with hl | ⟨-, -, rfl⟩
      · exact hw.handle q i o hl hne
      · have hne' : args.nsobjType ≠ .reservation := hne
        simpa [insertedObject, insertedHandle, hne'] using validateCoinsertArgs_handle hvalid hne'
  | deleted args p j space o hopen ho hcap hmem =>
    have hlists {q i : Nat} {o : Nsobject} : Lists (removeObject s p j) q i o ↔ _ :=
      lists_removeObject hok (openNs_target hopen).2 hmem
    exact ⟨fun q i o hl => hw.type q i o (hlists.mp hl).1,
      fun q i o hl => hw.handle q i o (hlists.mp hl).1⟩
  | updated args j o cap hcap ho hreserved htype hvalid =>
    obtain ⟨hfull, hhandle⟩ := hr hvalid
    constructor
    · intro q i o hl
      obtain ⟨old, hold, rfl⟩ := lists_fillObject.mp hl
      split
      · exact .inr hfull
      · exact hw.type q i old hold
    · intro q i o hl
      obtain ⟨old, hold, rfl⟩ := lists_fillObject.mp hl
      split
      · exact fun _ => hhandle
      · exact hw.handle q i old hold
  | created args p space parent cap =>
    exact ⟨fun q i o hl => hw.type q i o ((lists_addNamespace rfl).mp hl),
      fun q i o hl => hw.handle q i o ((lists_addNamespace rfl).mp hl)⟩
  | dropped args i space hopen hmem =>
    exact absurd (hok.child i space i (openNs_target hopen).2 hmem).1 (Nat.lt_irrefl i)
  | _ => exact hw

/-- What is listed after a request is new, or was listed before under a type that is kept. -/
theorem lists_effect {q i : Nat} {o' : Nsobject} (hok : TablesOk s) (hr : TypedUpdate s r)
    (he : Effect s r s' reply) (hl : Lists s' q i o') :
    s.nsobjects.length ≤ i ∨ ∃ o, Lists s q i o ∧ TypeKept o.type o'.type := by
  cases he with
  | inserted args p space cap hwr hopen =>
    rcases (lists_addObject hok (openNs_target hopen).2).mp hl with hl | ⟨-, hi, -⟩
    · exact .inr ⟨o', hl, .inl rfl⟩
    · exact .inl (Nat.le_of_eq hi.symm)
  | deleted args p j space o hopen ho hcap hmem =>
    obtain ⟨hl, -⟩ := (lists_removeObject hok (openNs_target hopen).2 hmem).mp hl
    exact .inr ⟨o', hl, .inl rfl⟩
  | updated args j o cap hcap ho hreserved htype hvalid =>
    obtain ⟨old, hold, rfl⟩ := lists_fillObject.mp hl
    refine .inr ⟨old, hold, ?_⟩
    split
    · rename_i hji
      subst hji
      obtain ⟨-, -, -, hentry⟩ := hold
      obtain rfl : o = old := Option.some.inj (ho.symm.trans hentry)
      exact .inr ⟨hreserved, (hr hvalid).1⟩
    · exact .inl rfl
  | created args p space parent cap => exact .inr ⟨o', (lists_addNamespace rfl).mp hl, .inl rfl⟩
  | dropped args j space hopen hmem =>
    exact absurd (hok.child j space j (openNs_target hopen).2 hmem).1 (Nat.lt_irrefl j)
  | _ => exact .inr ⟨o', hl, .inl rfl⟩

theorem nsobjects_length_effect (he : Effect s r s' reply) :
    s.nsobjects.length ≤ s'.nsobjects.length := by
  cases he with
  | inserted args p space cap => simp [addObject]
  | deleted args p j space o => simp [removeObject]
  | updated args j o cap => simp [fillObject]
  | _ => exact Nat.le_refl _

theorem TypeKept.trans {t t' t'' : NsobjectType} (h : TypeKept t t') (h' : TypeKept t' t'') :
    TypeKept t t'' := by
  rcases h with rfl | ⟨hres, hfull⟩
  · exact h'
  · rcases h' with rfl | ⟨-, hfull'⟩
    · exact .inr ⟨hres, hfull⟩
    · exact .inr ⟨hres, hfull'⟩

/-- nsd accepts the owner's handle of an object with a type. -/
theorem OwnHandle.valid {c : NsCap} {i : Nat} {o : Nsobject} (h : OwnHandle c i)
    (ho : s.nsobjects[i]? = some o) (htype : o.type ≠ .invalidNsobj) :
    s.validNsobjectCap c = some true := by
  have hlt : i < s.nsobjects.length := (List.getElem?_eq_some_iff.mp ho).1
  have htable : s.inNsobjectTable c = true := by simp [Tables.inNsobjectTable, h.target, hlt]
  have hcheck : s.validNsobjectCap c =
      (s.getNsobjectType c).map fun type => decide (type ≠ .invalidNsobj) := by
    simp [Tables.validNsobjectCap, h.tag, htable, Nat.not_lt.mpr h.size]
  rw [hcheck]
  rcases h.otype with hot | hot
  · have hobj : s.nsobj c = some (i, o) :=
      nsobj_eq_some.mpr ⟨Cap.load_eq_some.mpr ⟨h.tag, hot, h.load, h.target⟩, ho⟩
    simp [Tables.getNsobjectType, hot, hobj, htype]
  · simp [Tables.getNsobjectType, hot, nsobjOtypeToType]

/-- nsd reads the object under the owner's handle. -/
theorem OwnHandle.reads {c : NsCap} {i : Nat} {o : Nsobject} (h : OwnHandle c i)
    (ho : s.nsobjects[i]? = some o) : s.nsobj (unsealNsobj c) = some (i, o) := by
  have hknown : ∀ ot ∈ c.otype, nsobjOtypeToType ot ≠ .invalidNsobj := by
    rcases h.otype with hot | hot <;> simp [hot, nsobjOtypeToType]
  rw [unsealNsobj_eq hknown]
  exact nsobj_eq_some.mpr ⟨Cap.load_eq_some.mpr ⟨h.tag, rfl, h.load, h.target⟩, ho⟩

/-- The owner of a listed object can delete it. -/
theorem OwnHandle.deletes {p i : Nat} {o : Nsobject} (hok : TablesOk s) (hw : WellTyped s)
    (hl : Lists s p i o) (hown : OwnHandle args.nsobj i) (hopen : Opens s args.nsCap p) :
    s.validNsobjectCap args.nsobj = some true ∧
      ∃ s', s.handle (.codelete args) = some (s', .ok .null) := by
  have ho : s.nsobjects[i]? = some o := by
    obtain ⟨-, -, -, ho⟩ := hl
    exact ho
  have htype : o.type ≠ .invalidNsobj := by
    intro hinvalid
    have hvalid := hw.type p i o hl
    simp [hinvalid, Fulfilled] at hvalid
  have hvalid := hown.valid ho htype
  have hdel : Deletes s args p i o :=
    ⟨hopen, hvalid, hown.permits, hown.reads ho, hl, hw.handle p i o hl⟩
  exact ⟨hvalid, _, (codelete_ok_iff hok).mpr ⟨p, i, o, hdel, rfl, rfl⟩⟩

end Steps

/-! ### Runs -/

section Runs
variable {maxNamespaces maxNsobjects : Nat} {s s' : Tables}
  {handles : List UInt8 → Option { handle : NsCap // handle.tag = true }}

theorem wellTyped_init : WellTyped (initTables maxNamespaces maxNsobjects handles) where
  type p i o hl := by
    obtain ⟨-, -, -, -, ⟨hres, -⟩ | ⟨hserv, -⟩⟩ := lists_init hl
    · exact .inl hres
    · exact .inr (.inr (.inr hserv))
  handle p i o hl hne := by
    obtain ⟨-, -, -, -, ⟨hres, -⟩ | ⟨-, htag⟩⟩ := lists_init hl
    · exact absurd hres hne
    · intro hnull
      simp [o.obj.untagged_of_null hnull] at htag

theorem wellTyped_reach
    (h : Reach Tables.step TypedUpdate (initTables maxNamespaces maxNsobjects handles) s) :
    WellTyped s := by
  induction h with
  | init => exact wellTyped_init
  | next r hreach hr hs ih =>
    obtain ⟨⟨s', reply⟩, hhandle, rfl⟩ := Option.map_eq_some_iff.mp hs
    exact wellTyped_effect (tablesOk_reach hreach) ih hr (handle_effect hhandle)

/-- What is listed after a run is new, or was listed before under a type that is kept. -/
theorem lists_run (hok : TablesOk s) (h : Reach Tables.step TypedUpdate s s') :
    TablesOk s' ∧ s.nsobjects.length ≤ s'.nsobjects.length ∧
      ∀ q i o', Lists s' q i o' →
        s.nsobjects.length ≤ i ∨ ∃ o, Lists s q i o ∧ TypeKept o.type o'.type := by
  induction h with
  | init => exact ⟨hok, Nat.le_refl _, fun q i o' hl => .inr ⟨o', hl, .inl rfl⟩⟩
  | next r hreach hr hs ih =>
    obtain ⟨⟨t, reply⟩, hhandle, rfl⟩ := Option.map_eq_some_iff.mp hs
    obtain ⟨hok', hlen, hlists⟩ := ih
    have he := handle_effect hhandle
    refine ⟨tablesOk_effect hok' he, Nat.le_trans hlen (nsobjects_length_effect he), ?_⟩
    intro q i o' hl
    rcases lists_effect hok' hr he hl with hnew | ⟨o₁, hl₁, hkept₁⟩
    · exact .inl (Nat.le_trans hlen hnew)
    · rcases hlists q i o₁ hl₁ with hnew | ⟨o, hl₀, hkept⟩
      · exact .inl hnew
      · exact .inr ⟨o, hl₀, hkept.trans hkept₁⟩

/-- In every run whose accepted `coupdate` requests are typed, the listed objects are well typed,
the type of an object changes at most once, from a reservation, and its owner can delete it. -/
theorem objects_well_typed
    (h : Reach Tables.step TypedUpdate (initTables maxNamespaces maxNsobjects handles) s) :
    WellTyped s ∧
    (∀ s', Reach Tables.step TypedUpdate s s' → ∀ p q i o o', Lists s p i o → Lists s' q i o' →
      TypeKept o.type o'.type) ∧
    ∀ p i o (args : ObjectArgs), Lists s p i o → OwnHandle args.nsobj i → Opens s args.nsCap p →
      s.validNsobjectCap args.nsobj = some true ∧
        ∃ s', s.handle (.codelete args) = some (s', .ok .null) := by
  have hok := tablesOk_reach h
  have hw := wellTyped_reach h
  refine ⟨hw, fun s' hrun p q i o o' hl hl' => ?_, fun p i o args hl hown hopen => ?_⟩
  · obtain ⟨space, hspace, hmem, ho⟩ := hl
    rcases (lists_run hok hrun).2.2 q i o' hl' with hnew | ⟨o₁, ⟨-, -, -, ho₁⟩, hkept⟩
    · have := hok.listed p space i hspace hmem
      omega
    · obtain rfl : o₁ = o := Option.some.inj (ho₁.symm.trans ho)
      exact hkept
  · exact hown.deletes hok hw hl hopen

end Runs

/-- A reservation of the name `r`. -/
def reservationR : ObjectArgs := ⟨rootCap, asciiBytes ['r'], .null, .reservation, .null⟩

/-- The owner's handle to it. -/
def handleR : NsCap :=
  ((Tables.nsobjPtr 6).andperm nsobjPermsOwnMask).sealWith .reservationNsobj

/-- The reservation becomes a coport. -/
def fulfilR : ObjectArgs :=
  { reservationR with nsobj := handleR, nsobjType := .coport, obj := clientHandle }

/-- A reservation that is fulfilled by a coport. -/
theorem objects_well_typed_fulfil :
    ∃ s, runFrom Tables.step freshTables [.coinsert reservationR, .coupdate fulfilR] = some s ∧
      s.nsobjects[6]?.map Nsobject.type = some .coport ∧ WellTyped s := by
  obtain ⟨s, hs⟩ : ∃ s, runFrom Tables.step freshTables
      [.coinsert reservationR, .coupdate fulfilR] = some s :=
    Option.isSome_iff_exists.mp (by decide)
  have htype : s.nsobjects[6]?.map Nsobject.type = some .coport :=
    eq_of_map_runFrom (fun s => s.nsobjects[6]?.map Nsobject.type) hs (by decide)
  have hreach : Reach Tables.step TypedUpdate (initTables 4 16 fun _ => none) s := by
    obtain ⟨s₁, hs₁, hrest⟩ := Option.bind_eq_some_iff.mp hs
    have hfirst : Reach Tables.step TypedUpdate (initTables 4 16 fun _ => none) s₁ :=
      .next (.coinsert reservationR) .init trivial hs₁
    have hupdate : TypedUpdate s₁ (.coupdate fulfilR) := fun _ =>
      ⟨.inr (.inl rfl), by decide⟩
    exact .next (.coupdate fulfilR) hfirst hupdate (by simpa [runFrom] using hrest)
  exact ⟨s, hs, htype, (objects_well_typed hreach).1⟩

/-- The reservation gets the type `INVALID_NSOBJ`. -/
def invalidateR : ObjectArgs := { fulfilR with nsobjType := .invalidNsobj }

/-- A `coupdate` with the type `INVALID_NSOBJ` is accepted. The object stays in the list, and nsd
refuses the capability to it that it has just returned. -/
theorem update_invalidates_object :
    ∃ s o, runFrom Tables.step freshTables
        [.coinsert reservationR, .coupdate invalidateR] = some s ∧
      Lists s 0 6 o ∧ o.type = .invalidNsobj ∧ s.validNsobjectCap handleA = some false := by
  obtain ⟨s, hs⟩ : ∃ s, runFrom Tables.step freshTables
      [.coinsert reservationR, .coupdate invalidateR] = some s :=
    Option.isSome_iff_exists.mp (by decide)
  have hlisted : s.namespaces[0]?.map Namespace.objects = some [6, 5, 4, 3, 2, 1, 0] :=
    eq_of_map_runFrom (fun s => s.namespaces[0]?.map Namespace.objects) hs (by decide)
  have htype : s.nsobjects[6]?.map Nsobject.type = some .invalidNsobj :=
    eq_of_map_runFrom (fun s => s.nsobjects[6]?.map Nsobject.type) hs (by decide)
  have hrefused : s.validNsobjectCap handleA = some false :=
    eq_of_map_runFrom (fun s => s.validNsobjectCap handleA) hs (by decide)
  obtain ⟨space, hspace, hobjects⟩ := Option.map_eq_some_iff.mp hlisted
  obtain ⟨o, ho, hinvalid⟩ := Option.map_eq_some_iff.mp htype
  exact ⟨s, o, hs, ⟨space, hspace, by simp [hobjects], ho⟩, hinvalid, hrefused⟩

end Comsg.Proofs.Nsd
