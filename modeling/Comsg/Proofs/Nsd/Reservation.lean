import Comsg.Nsd.Clients
import Comsg.Proofs.Ipcd.Validate
import Comsg.Proofs.Nsd.Typing

/-!
# `Comsg.Proofs.Nsd.Reservation`: fulfilling a reservation with a handle of another daemon

`validate_coupdate_args` wants a sealed handle that is not global. ipcd seals the coports it
hands out, and clears `CHERI_PERM_GLOBAL`. coserviced seals the endpoint inside the coservice, but
not the handle to the coservice. So a reservation becomes a coport, and never a coservice
(`reservation_turns_iff`).

A reservation that was fulfilled stays as it is until it is deleted (`Holds`), and an object that
is no reservation never becomes one (`Spent`).
-/

set_option autoImplicit false

namespace Comsg.Proofs.Nsd

open Comsg.Lib
open Comsg.Nsd
open Comsg.Nsd.Tables (nsobjPtr)

/-- The object of a reservation has not been updated or deleted. -/
def Pending (s : Tables) (cap : NsCap) : Prop :=
  ∃ i o, cap.target = some (.nsobj i) ∧ s.nsobjects[i]? = some o ∧ o.type = .reservation

/-- The request is no `codelete` of the object. -/
def NoDelete (cap : NsCap) (_ : Tables) : Request → Prop
  | .codelete args => args.nsobj.target ≠ cap.target
  | _ => True

/-- The reservation `cap` of the name `name` in namespace `p` can be turned into an object of a
type with the handle `h`. `coupdate` succeeds, `coselect` finds the handle until a `codelete`, and
no further `coupdate` with `cap` succeeds or changes anything. -/
def TurnsInto (s : Tables) (p : Nat) (name : List UInt8) (cap : NsCap) (type : NsobjectType)
    (h : NsCap) : Prop :=
  ∀ update : ObjectArgs, update.nsobj = cap → update.nsobjType = type → update.obj = h →
    ∃ s₁ cap₁, s.handle (.coupdate update) = some (s₁, .ok cap₁) ∧
    (∀ s', Reach Tables.step (NoDelete cap) s₁ s' → ∀ select : ObjectArgs,
      Opens s' select.nsCap p → select.nsobjName = name → select.nsobjType = type →
      ∃ cap' i o, s'.handle (.coselect select) = some (s', .ok cap') ∧
        cap'.target = some (.nsobj i) ∧ s'.nsobjects[i]? = some o ∧ o.obj = h) ∧
    ∀ s', Reach Tables.step anyAct s₁ s' → ∀ again : ObjectArgs, again.nsobj = cap →
      ∃ error, s'.handle (.coupdate again) = some (s', .err error)

/-- Namespace `p` lists object `i` under a name, with a type and a handle. -/
def Holds (s : Tables) (p i : Nat) (name : List UInt8) (type : NsobjectType) (h : NsCap) : Prop :=
  ∃ o, Lists s p i o ∧ nsName o.name = nsName name ∧ o.type = type ∧ o.obj = h

/-- Object `i` is no reservation. -/
def Spent (s : Tables) (i : Nat) : Prop :=
  ∃ o, s.nsobjects[i]? = some o ∧ o.type ≠ .reservation

/-- The capability that `coinsert` returns for a reservation. -/
def reservationCap (i : Nat) : NsCap :=
  ((nsobjPtr i).andperm nsobjPermsOwnMask).sealWith .reservationNsobj

/-! ### The handles -/

theorem isSealed_provideCoservice (addr endpoint : Nat) (flags op : Int) :
    (provideCoservice addr endpoint flags op).isSealed = false := rfl

theorem isSealed_provideCoservice2 {addr : Nat} {endpoint h : NsCap} {flags op : Int}
    (hprovide : provideCoservice2 addr endpoint flags op = some h) : h.isSealed = false := by
  unfold provideCoservice2 at hprovide
  split at hprovide
  · cases hprovide
  · split at hprovide
    · cases hprovide
    · cases hprovide
      rfl

/-- `coport_open` returns a sealed handle to its entry. -/
theorem coportOpen_eq {s : Ipcd.PortTables} {type : CoportType} {i : Nat}
    (hi : i < s.nextCoport type) : coportOpen s type i = some (s.handle type i) := by
  have hread : s.mem (s.entry type i + Ipcd.offsetType) = type.toInt := s.typed type i hi
  have htable : Ipcd.PortTables.getCoportTable type.toInt = some type := by cases type <;> decide
  have hperms : dataPerms &&& Ipcd.coportPerms &&& ~~~permGlobal = Ipcd.coportPerms := by decide
  have hload : Meets Ipcd.coportPerms permLoad := by decide
  -- `seal_coport` reads the type through the bounded capability, to choose the sealing type.
  have hbounds : s.entry type i + Ipcd.offsetType + Ipcd.sizeofType ≤
      s.entry type i + Ipcd.sizeofCoport := by
    simp only [Ipcd.offsetType, Ipcd.sizeofType, Ipcd.sizeofCoport, chericapSize]
    omega
  simp [coportOpen, sealCoport, BoundedCap.Loads, BoundedCap.Spans, hperms, hload, hbounds, hread,
    htable, Ipcd.PortTables.handle]

/-- Of the handles that a client may have, those of coports pass `validate_coupdate_args`. -/
theorem activeHandle_sealed_iff {type : NsobjectType} {h : NsCap} (hactive : ActiveHandle type h) :
    (h.isSealed = true ↔ type = .coport) ∧
    (type = .coport → h.tag = true ∧ ¬Meets h.perms permGlobal) := by
  cases hactive with
  | coprovide addr endpoint flags op => simp [isSealed_provideCoservice]
  | coprovide2 addr endpoint flags op h hprovide => simp [isSealed_provideCoservice2 hprovide]
  | coopen s type i h hi hopen =>
    rw [coportOpen_eq hi] at hopen
    cases hopen
    have hlocal : ¬Meets Ipcd.coportPerms permGlobal := by decide
    exact ⟨by simp [present, Cap.isSealed, Ipcd.PortTables.handle], fun _ => ⟨rfl, hlocal⟩⟩

/-! ### What becomes of an object -/

section Steps
variable {s s' : Tables} {r : Request} {reply : Reply} {p i : Nat} {o : Nsobject}
  {name : List UInt8} {type : NsobjectType} {h : NsCap}

/-- What a request makes of a listed object: it stays as it is, or it is deleted, or it was a
reservation and is fulfilled. -/
theorem lists_after (hok : TablesOk s) (he : Effect s r s' reply) (hl : Lists s p i o) :
    Lists s' p i o ∨
    (Spent s' i ∧ ∃ args, r = .codelete args ∧ args.nsobj.target = some (.nsobj i)) ∨
    (Spent s' i ∧ o.type = .reservation) := by
  have hentry : s.nsobjects[i]? = some o := by
    obtain ⟨-, -, -, ho⟩ := hl
    exact ho
  cases he with
  | inserted args q space cap hwr hopen =>
    exact .inl ((lists_addObject hok (openNs_target hopen).2).mpr (.inl hl))
  | deleted args q j space o' hopen ho' hcap hmem =>
    by_cases hij : i = j
    · -- The entry stays in the table, zeroed and with the type `INVALID_NSOBJ`.
      subst hij
      refine .inr (.inl ⟨⟨⟨List.replicate nsNameLen 0, .invalidNsobj, .null⟩, ?_, by simp⟩, args,
        rfl, hcap⟩)
      simp [removeObject, hentry]
    · exact .inl ((lists_removeObject hok (openNs_target hopen).2 hmem).mpr ⟨hl, hij⟩)
  | updated args j o' cap hcap ho' hreserved htype =>
    by_cases hji : j = i
    · subst hji
      obtain rfl : o' = o := Option.some.inj (ho'.symm.trans hentry)
      have hfilled : (fillObject s j args.nsobjType args.obj).nsobjects[j]? =
          some { o' with type := args.nsobjType, obj := args.obj } := by
        rw [fillObject_nsobjects, hentry, Option.map_some, if_pos rfl]
      exact .inr (.inr ⟨⟨_, hfilled, htype⟩, hreserved⟩)
    · exact .inl (lists_fillObject.mpr ⟨o, hl, by rw [if_neg hji]⟩)
  | created args q space parent cap => exact .inl ((lists_addNamespace rfl).mpr hl)
  | dropped args j space hopen hmem =>
    -- `codrop` wants a namespace to be its own child, and children come after their parents.
    exact absurd (hok.child j space j (openNs_target hopen).2 hmem).1 (Nat.lt_irrefl j)
  | _ => exact .inl hl

/-- An object that is no reservation never becomes one. -/
theorem spent_effect (hok : TablesOk s) (he : Effect s r s' reply) (hs : Spent s i) :
    Spent s' i := by
  obtain ⟨o, ho, htype⟩ := hs
  have hlt : i < s.nsobjects.length := (List.getElem?_eq_some_iff.mp ho).1
  cases he with
  | inserted args q space cap hwr hopen =>
    exact ⟨o, by rw [addObject_nsobjects, if_neg (by omega), ho], htype⟩
  | deleted args q j space o' hopen ho' hcap hmem =>
    by_cases hij : i = j
    · subst hij
      exact ⟨⟨List.replicate nsNameLen 0, .invalidNsobj, .null⟩, by simp [removeObject, ho],
        by simp⟩
    · exact ⟨o, by rw [removeObject_nsobjects hij, ho], htype⟩
  | updated args j o' cap hcap ho' hreserved htype' =>
    by_cases hji : j = i
    · -- `coupdate` reads the type again, and refuses what is no reservation.
      subst hji
      obtain rfl : o' = o := Option.some.inj (ho'.symm.trans ho)
      exact absurd hreserved htype
    · exact ⟨o, by rw [fillObject_nsobjects, ho, Option.map_some, if_neg hji], htype⟩
  | dropped args j space hopen hmem =>
    exact absurd (hok.child j space j (openNs_target hopen).2 hmem).1 (Nat.lt_irrefl j)
  | _ => exact ⟨o, ho, htype⟩

/-- A fulfilled reservation is kept by every request but its `codelete`. -/
theorem holds_effect {cap : NsCap} (hok : TablesOk s) (he : Effect s r s' reply)
    (hcap : cap.target = some (.nsobj i)) (hr : NoDelete cap s r) (hne : type ≠ .reservation)
    (hh : Holds s p i name type h) : Holds s' p i name type h := by
  obtain ⟨o, hl, hname, htype, hobj⟩ := hh
  rcases lists_after hok he hl with hl' | ⟨-, args, rfl, htarget⟩ | ⟨-, hreserved⟩
  · exact ⟨o, hl', hname, htype, hobj⟩
  · exact absurd (htarget.trans hcap.symm) hr
  · -- A reservation is fulfilled once: this one has its type already.
    exact absurd (htype.symm.trans hreserved) hne

/-- A reservation stays, or it is spent. -/
theorem reserved_effect (hok : TablesOk s) (he : Effect s r s' reply)
    (hh : Holds s p i name .reservation .null) :
    Holds s' p i name .reservation .null ∨ Spent s' i := by
  obtain ⟨o, hl, hname, htype, hobj⟩ := hh
  rcases lists_after hok he hl with hl' | ⟨hspent, -⟩ | ⟨hspent, -⟩
  · exact .inl ⟨o, hl', hname, htype, hobj⟩
  · exact .inr hspent
  · exact .inr hspent

/-! ### The requests -/

/-- A `coinsert` of a reservation that succeeds. -/
theorem coinsert_reservation {args : ObjectArgs} {cap : NsCap} (hok : TablesOk s)
    (hins : s.handle (.coinsert args) = some (s', .ok cap))
    (hres : args.nsobjType = .reservation) :
    ∃ p, cap = reservationCap s.nsobjects.length ∧ args.nsCap.target = some (.ns p) ∧
      validNsName args.nsobjName = true ∧
      Holds s' p s.nsobjects.length args.nsobjName .reservation .null := by
  cases handle_effect hins with
  | inserted _ p space _ hwr hopen hname htype hobjects hspaces hcap =>
    obtain ⟨htarget, hspace⟩ := openNs_target hopen
    refine ⟨p, by simp [hcap, insertedCap, hres, reservationCap], htarget, hname,
      insertedObject args, ?_, by simp [insertedObject], hres, by simp [insertedObject,
        insertedHandle, hres]⟩
    exact (lists_addObject hok hspace).mpr (.inr ⟨rfl, rfl, rfl⟩)
  | insertedNothing _ p space hwr hopen htype => simp [hres, validNsobjType] at htype

theorem reservationCap_valid (hi : i < s.nsobjects.length) :
    s.validNsobjectCap (reservationCap i) = some true := by
  simp [Tables.validNsobjectCap, reservationCap, Cap.sealWith, Cap.andperm, nsobjPtr,
    Tables.inNsobjectTable, Tables.getNsobjectType, nsobjOtypeToType, hi]

theorem reservationCap_reads (ho : s.nsobjects[i]? = some o) :
    s.nsobj (unsealNsobj (reservationCap i)) = some (i, o) := by
  have hload : Meets (dataPerms &&& nsobjPermsOwnMask) permLoad := by decide
  have hdelete : Meets (dataPerms &&& nsobjPermsOwnMask) nsobjPermD := by decide
  exact OwnHandle.reads ⟨rfl, rfl, Nat.le_refl _, .inr rfl, hload, hdelete⟩ ho

/-- Whether `validate_coupdate_args` accepts a reservation with a handle. -/
theorem validateCoupdateArgs_eq {args : ObjectArgs} (hcap : args.nsobj = reservationCap i)
    (hi : i < s.nsobjects.length) : s.validateCoupdateArgs args =
      some (decide (args.nsobjType.toInt ≠ 0 ∧ args.obj.isSealed = true ∧
        ¬Meets args.obj.perms permGlobal)) := by
  simp only [Tables.validateCoupdateArgs, hcap, reservationCap_valid hi, Option.bind_eq_bind,
    Option.bind_some]
  by_cases htype : args.nsobjType.toInt = 0
  · simp [htype, reservationCap, Cap.isSealed, Cap.sealWith]
  · cases hseal : args.obj.isSealed <;>
      simp [htype, reservationCap, Cap.isSealed, Cap.sealWith]

/-- The handler of `coupdate` on the capability of a reservation. -/
theorem namespaceObjectUpdate_eq {args : ObjectArgs} (hcap : args.nsobj = reservationCap i)
    (ho : s.nsobjects[i]? = some o) : s.namespaceObjectUpdate args =
      if o.type ≠ .reservation then some (s, .err .enodev)
      else some (fillObject s i args.nsobjType args.obj,
        .ok ((reservationCap i).unsealed.clearperm nsobjPermW)) := by
  have hread := reservationCap_reads ho
  have hunseal : unsealNsobj (reservationCap i) = (reservationCap i).unsealed := rfl
  have htarget : (reservationCap i).unsealed.target = some (.nsobj i) := rfl
  have hwrite : Meets (reservationCap i).unsealed.perms nsobjPermW := by
    show Meets (dataPerms &&& nsobjPermsOwnMask) nsobjPermW
    decide
  have hstores : (reservationCap i).unsealed.StoresCap args.obj := by
    refine ⟨?_, fun _ => ⟨?_, .inr ?_⟩⟩ <;>
      show Meets (dataPerms &&& nsobjPermsOwnMask) _ <;> decide
  rw [hunseal] at hread
  simp only [Tables.namespaceObjectUpdate, hcap, hunseal, htarget, hread, Option.bind_eq_bind,
    Option.bind_some]
  simp [hwrite, hstores, fillObject]

/-- A spent reservation is refused, and nothing changes. -/
theorem coupdate_spent {args : ObjectArgs} (hcap : args.nsobj = reservationCap i)
    (hs : Spent s i) : ∃ error, s.handle (.coupdate args) = some (s, .err error) := by
  obtain ⟨o, ho, htype⟩ := hs
  have hi : i < s.nsobjects.length := (List.getElem?_eq_some_iff.mp ho).1
  simp only [Tables.handle, Tables.validated, validateCoupdateArgs_eq hcap hi, Option.bind_eq_bind,
    Option.bind_some]
  split
  · exact ⟨_, rfl⟩
  · exact ⟨_, by rw [namespaceObjectUpdate_eq hcap ho, if_pos htype]⟩

/-- `coselect` finds what a name holds. -/
theorem coselect_holds {args : ObjectArgs} (hok : TablesOk s) (hopen : Opens s args.nsCap p)
    (hname : validNsName args.nsobjName = true) (htype : Fulfilled args.nsobjType)
    (htag : h.tag = true) (hh : Holds s p i args.nsobjName args.nsobjType h) :
    s.handle (.coselect args) = some (s, .ok ((nsobjPtr i).clearperm nsobjPermW)) := by
  obtain ⟨o, hl, ho, hty, rfl⟩ := hh
  have hlist : listing s p (nsName args.nsobjName) = some ⟨i, args.nsobjType, o.obj⟩ :=
    (listing_eq_some hok).mpr ⟨o, hl, ho, hty, rfl⟩
  have hvalid : validNsobjType args.nsobjType = true := by
    rcases htype with heq | heq | heq <;> rw [heq] <;> rfl
  have hne : args.nsobjType ≠ .reservation := by
    rcases htype with heq | heq | heq <;> simp [heq]
  rw [handle_coselect hopen, hlist]
  simp [answer, hname, hvalid, hne, htag]

end Steps

/-! ### Runs -/

section Runs
variable {maxNamespaces maxNsobjects : Nat} {s s' : Tables} {p i : Nat} {name : List UInt8}
  {handles : List UInt8 → Option { handle : NsCap // handle.tag = true }}

theorem tablesOk_run {ok : Tables → Request → Prop} (hok : TablesOk s)
    (h : Reach Tables.step ok s s') : TablesOk s' := by
  refine h.invariant hok fun s r s' _ hok _ hs => ?_
  obtain ⟨⟨t, reply⟩, hhandle, rfl⟩ := Option.map_eq_some_iff.mp hs
  exact tablesOk_effect hok (handle_effect hhandle)

theorem spent_run {ok : Tables → Request → Prop} (hok : TablesOk s)
    (h : Reach Tables.step ok s s') (hs : Spent s i) : Spent s' i := by
  induction h with
  | init => exact hs
  | next r hreach _ hstep ih =>
    obtain ⟨⟨t, reply⟩, hhandle, rfl⟩ := Option.map_eq_some_iff.mp hstep
    exact spent_effect (tablesOk_run hok hreach) (handle_effect hhandle) ih

theorem holds_run {cap h : NsCap} {type : NsobjectType} (hok : TablesOk s)
    (hrun : Reach Tables.step (NoDelete cap) s s') (hcap : cap.target = some (.nsobj i))
    (hne : type ≠ .reservation) (hh : Holds s p i name type h) : Holds s' p i name type h := by
  induction hrun with
  | init => exact hh
  | next r hreach hr hstep ih =>
    obtain ⟨⟨t, reply⟩, hhandle, rfl⟩ := Option.map_eq_some_iff.mp hstep
    exact holds_effect (tablesOk_run hok hreach) (handle_effect hhandle) hcap hr hne ih

/-- A reservation is still in its namespace, as long as it was not updated or deleted. -/
theorem reserved_run {ok : Tables → Request → Prop} (hok : TablesOk s)
    (hrun : Reach Tables.step ok s s') (hh : Holds s p i name .reservation .null) :
    Holds s' p i name .reservation .null ∨ Spent s' i := by
  induction hrun with
  | init => exact .inl hh
  | next r hreach _ hstep ih =>
    have hok' := tablesOk_run hok hreach
    obtain ⟨⟨t, reply⟩, hhandle, rfl⟩ := Option.map_eq_some_iff.mp hstep
    rcases ih with hholds | hspent
    · exact reserved_effect hok' (handle_effect hhandle) hholds
    · exact .inr (spent_effect hok' (handle_effect hhandle) hspent)

/-- A reservation can be turned into an object with a sealed handle that is not global. -/
theorem turnsInto_of_sealed {type : NsobjectType} {h : NsCap} (hok : TablesOk s)
    (hname : validNsName name = true) (hh : Holds s p i name .reservation .null)
    (htype : Fulfilled type) (htag : h.tag = true) (hseal : h.isSealed = true)
    (hlocal : ¬Meets h.perms permGlobal) : TurnsInto s p name (reservationCap i) type h := by
  rintro update hcap rfl rfl
  obtain ⟨o, hl, ho, hres, -⟩ := hh
  have hentry : s.nsobjects[i]? = some o := by
    obtain ⟨-, -, -, hentry⟩ := hl
    exact hentry
  have hi : i < s.nsobjects.length := (List.getElem?_eq_some_iff.mp hentry).1
  have hne : update.nsobjType ≠ .reservation := by
    rcases htype with heq | heq | heq <;> simp [heq]
  have hint : update.nsobjType.toInt ≠ 0 := by
    rcases htype with heq | heq | heq <;> simp [heq, NsobjectType.toInt]
  have hupdate : s.handle (.coupdate update) =
      some (fillObject s i update.nsobjType update.obj,
        .ok ((reservationCap i).unsealed.clearperm nsobjPermW)) := by
    simp only [Tables.handle, Tables.validated, validateCoupdateArgs_eq hcap hi,
      namespaceObjectUpdate_eq hcap hentry, Option.bind_eq_bind, Option.bind_some]
    simp [hint, hseal, hlocal, hres]
  have hok₁ := tablesOk_effect hok (handle_effect hupdate)
  have hfilled : Lists (fillObject s i update.nsobjType update.obj) p i
      { o with type := update.nsobjType, obj := update.obj } :=
    lists_fillObject.mpr ⟨o, hl, by rw [if_pos rfl]⟩
  refine ⟨_, _, hupdate, fun s' hrun select hopen hselect hty => ?_, fun s' hrun again hagain => ?_⟩
  · -- Until a `codelete` the name holds the handle.
    have hholds : Holds s' p i name update.nsobjType update.obj :=
      holds_run hok₁ hrun rfl hne ⟨_, hfilled, ho, rfl, rfl⟩
    subst hselect
    rw [← hty] at hholds htype
    have hfound := coselect_holds (tablesOk_run hok₁ hrun) hopen hname htype htag hholds
    obtain ⟨o', ⟨-, -, -, ho'⟩, -, -, hobj⟩ := hholds
    exact ⟨_, i, o', hfound, rfl, ho', hobj⟩
  · -- The entry is never a reservation again, whatever happens to it.
    obtain ⟨-, -, -, hfill⟩ := hfilled
    exact coupdate_spent hagain (spent_run hok₁ hrun ⟨_, hfill, hne⟩)

/-- A reservation that was made with `coinsert`, and was not yet updated or deleted, can be turned
into an object with a handle that another daemon has returned, if and only if that is a coport. -/
theorem reservation_turns_iff {s₀ s₁ : Tables} {args : ObjectArgs} {cap h : NsCap}
    {type : NsobjectType}
    (hreach : Reach Tables.step anyAct (initTables maxNamespaces maxNsobjects handles) s₀)
    (hins : s₀.handle (.coinsert args) = some (s₁, .ok cap))
    (hres : args.nsobjType = .reservation) (hp : args.nsCap.target = some (.ns p))
    (hrun : Reach Tables.step anyAct s₁ s) (hpending : Pending s cap)
    (hactive : ActiveHandle type h) :
    TurnsInto s p args.nsobjName cap type h ↔ type = .coport := by
  have hok₀ := tablesOk_reach hreach
  obtain ⟨q, rfl, hq, hname, hholds⟩ := coinsert_reservation hok₀ hins hres
  obtain rfl : q = p := by simpa using hq.symm.trans hp
  have hok₁ := tablesOk_effect hok₀ (handle_effect hins)
  obtain ⟨i, o, hi, ho, hotype⟩ := hpending
  obtain rfl : s₀.nsobjects.length = i := by simpa [reservationCap, Cap.sealWith, Cap.andperm,
    nsobjPtr] using hi
  have hlt := (List.getElem?_eq_some_iff.mp ho).1
  constructor
  · intro hturns
    -- An update that is accepted has a sealed handle.
    obtain ⟨s', cap', hupdate, -⟩ := hturns ⟨.null, [], reservationCap s₀.nsobjects.length, type, h⟩
      rfl rfl rfl
    rcases validated_cases hupdate with ⟨-, herr⟩ | ⟨hvalid, -⟩
    · cases herr
    · rw [validateCoupdateArgs_eq rfl hlt, Option.some.injEq, decide_eq_true_eq] at hvalid
      exact (activeHandle_sealed_iff hactive).1.mp hvalid.2.1
  · intro htype
    obtain ⟨htag, hlocal⟩ := (activeHandle_sealed_iff hactive).2 htype
    rcases reserved_run hok₁ hrun hholds with hholds' | ⟨o', ho', hspent⟩
    · exact turnsInto_of_sealed (tablesOk_run hok₁ hrun) hname hholds' (.inr (.inl htype)) htag
        ((activeHandle_sealed_iff hactive).1.mpr htype) hlocal
    · -- It was updated or deleted on the way.
      obtain rfl : o' = o := Option.some.inj (ho'.symm.trans ho)
      exact absurd hotype hspent

end Runs

/-- What an answered request computes. -/
theorem eq_of_map_handle {τ : Type} {s : Tables} {r : Request} {q : Tables × Reply} {b : τ}
    (f : Tables × Reply → τ) (h : s.handle r = some q) (hf : (s.handle r).map f = some b) :
    f q = b := by
  rw [h] at hf
  exact Option.some.inj hf

/-- The handle of a cocarrier. -/
def cocarrierHandle : NsCap := present (Ipcd.onePort.handle .cocarrier 0)

/-- The reservation `r` becomes a coport. -/
theorem reservation_turns_iff_coport :
    ∃ s, s.nsobjects.length = 7 ∧
      freshTables.handle (.coinsert reservationR) = some (s, .ok (reservationCap 6)) ∧
      TurnsInto s 0 (asciiBytes ['r']) (reservationCap 6) .coport cocarrierHandle := by
  obtain ⟨⟨s, reply⟩, hins⟩ : ∃ q, freshTables.handle (.coinsert reservationR) = some q :=
    Option.isSome_iff_exists.mp (by decide)
  have hlen : s.nsobjects.length = 7 :=
    eq_of_map_handle (fun q => q.1.nsobjects.length) hins (by decide)
  have hreply : reply = .ok (reservationCap 6) := eq_of_map_handle Prod.snd hins (by decide)
  have htype : s.nsobjects[6]?.map Nsobject.type = some .reservation :=
    eq_of_map_handle (fun q => q.1.nsobjects[6]?.map Nsobject.type) hins (by decide)
  subst hreply
  obtain ⟨o, ho, hotype⟩ := Option.map_eq_some_iff.mp htype
  have hreach : Reach Tables.step anyAct (initTables 4 16 fun _ => none) freshTables := .init
  have hactive : ActiveHandle .coport cocarrierHandle :=
    .coopen Ipcd.onePort .cocarrier 0 _ (by decide) (coportOpen_eq (by decide))
  exact ⟨s, hlen, hins, (reservation_turns_iff hreach hins rfl rfl .init ⟨6, o, rfl, ho, hotype⟩
    hactive).mpr rfl⟩

/-- The reservation `r` with the handle of a new coservice. -/
def provideR : ObjectArgs :=
  { reservationR with
    nsobj := reservationCap 6
    nsobjType := .coservice
    obj := provideCoservice 1 2 0 0 }

/-- The handle that `coprovide` has returned is refused with `EINVAL`. -/
theorem coservice_update_refused :
    ∃ s, freshTables.handle (.coinsert reservationR) = some (s, .ok (reservationCap 6)) ∧
      (s.handle (.coupdate provideR)).map Prod.snd = some (.err .einval) ∧
      ¬TurnsInto s 0 (asciiBytes ['r']) (reservationCap 6) .coservice
        (provideCoservice 1 2 0 0) := by
  obtain ⟨⟨s, reply⟩, hins⟩ : ∃ q, freshTables.handle (.coinsert reservationR) = some q :=
    Option.isSome_iff_exists.mp (by decide)
  have hreply : reply = .ok (reservationCap 6) := eq_of_map_handle Prod.snd hins (by decide)
  have hrefused : (s.handle (.coupdate provideR)).map Prod.snd = some (.err .einval) :=
    eq_of_map_handle (fun q => (q.1.handle (.coupdate provideR)).map Prod.snd) hins (by decide)
  subst hreply
  refine ⟨s, hins, hrefused, fun hturns => ?_⟩
  obtain ⟨s', cap', hupdate, -⟩ := hturns provideR rfl rfl rfl
  simp [hupdate] at hrefused

end Comsg.Proofs.Nsd
