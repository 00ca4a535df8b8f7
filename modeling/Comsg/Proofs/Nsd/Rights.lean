import Comsg.Proofs.Nsd.Directory

/-!
# `Comsg.Proofs.Nsd.Rights`: the rights that a request needs

`RightsHeld` is what `nsd.c` and `namespace.h` ask for before a request may succeed. `coinsert`
and `cocreate` check it. `codrop` checks for one of two bits, but it never succeeds. `coselect`
checks nothing, and `codelete` does not look at the rights to the namespace.

`Selects` and `Deletes` say when `coselect` and `codelete` succeed (`coselect_ok_iff`,
`codelete_ok_iff`). `rights_enforced_iff` follows: the documented rights were held, unless the
request is one of these two and its capability to the namespace lacks them (`Unchecked`).
-/

set_option autoImplicit false

namespace Comsg.Proofs.Nsd

open Comsg.Lib
open Comsg.Nsd
open Comsg.Nsd.Tables (nsobjPtr)

/-- The rights that are documented for a request. None are for `coupdate`. -/
def RightsHeld : Request → Prop
  | .coinsert args => Meets args.nsCap.perms nsPermWr
  | .cocreate args => Meets args.nsCap.perms nsPermWr
  | .coselect args => Meets args.nsCap.perms (nsPermRo ||| nsPermWr)
  | .codelete args =>
    (Meets args.nsobj.perms nsobjPermD ∧ Meets args.nsCap.perms nsPermWr) ∨
      args.nsCap.perms &&& nsPermsOwn = nsPermsOwn
  | .codrop args => args.nsCap.perms &&& nsPermsOwn = nsPermsOwn
  | .coupdate _ => True

/-- The request can select object `i` of namespace `p`. -/
structure Selects (s : Tables) (args : ObjectArgs) (p i : Nat) (o : Nsobject) : Prop where
  opens : Opens s args.nsCap p
  lists : Lists s p i o
  name : nsName o.name = nsName args.nsobjName
  type : o.type = args.nsobjType
  validName : validNsName args.nsobjName = true
  validType : validNsobjType args.nsobjType = true
  ready : o.type ≠ .reservation → o.obj.tag = true

/-- The request can delete object `i` of namespace `p`. -/
structure Deletes (s : Tables) (args : ObjectArgs) (p i : Nat) (o : Nsobject) : Prop where
  opens : Opens s args.nsCap p
  valid : s.validNsobjectCap args.nsobj = some true
  permits : Meets args.nsobj.perms nsobjPermD
  reads : s.nsobj (unsealNsobj args.nsobj) = some (i, o)
  lists : Lists s p i o
  ready : o.type ≠ .reservation → o.obj.target ≠ none

/-- The request succeeds without the rights that are documented for it. -/
def Unchecked (s : Tables) : Request → Prop
  | .coselect args =>
    ¬Meets args.nsCap.perms (nsPermRo ||| nsPermWr) ∧ ∃ p i o, Selects s args p i o
  | .codelete args => ¬Meets args.nsCap.perms nsPermWr ∧ ∃ p i o, Deletes s args p i o
  | _ => False

/-- The capability that `coselect` returns for an object. -/
def selectedCap (i : Nat) (type : NsobjectType) : NsCap :=
  if type = .reservation then (nsobjPtr i).sealWith .reservationNsobj
  else (nsobjPtr i).clearperm nsobjPermW

section Success
variable {s s' : Tables} {c cap : NsCap} {p i : Nat} {args : ObjectArgs} {o : Nsobject}
  {space : Namespace}

/-- A valid capability that nsd could open has the load permissions. -/
theorem Opens.of_openNs (hvalid : s.validNamespaceCap c = some true)
    (h : s.openNs c = some (p, space)) : Opens s c p := by
  obtain ⟨-, -, hload, hcap, htarget, -⟩ := openNs_eq_some.mp h
  exact ⟨hvalid, hload, hcap, htarget⟩

/-- What `coselect` returns for an entry of the listing. -/
theorem answer_eq_ok {e : Entry} : answer args (some e) = .ok cap ↔
    validNsName args.nsobjName = true ∧ validNsobjType args.nsobjType = true ∧
      e.type = args.nsobjType ∧ (e.type ≠ .reservation → e.handle.tag = true) ∧
      cap = selectedCap e.object e.type := by
  simp only [answer]
  constructor
  · intro h
    split at h
    · rename_i hvalid
      split at h
      · cases h
      · rename_i htype
        rw [ne_eq, not_not] at htype
        split at h
        · cases h
        · rename_i hready
          have htag : e.type ≠ .reservation → e.handle.tag = true := by
            simpa using hready
          refine ⟨hvalid.1, hvalid.2, htype, htag, ?_⟩
          rw [selectedCap]
          split at h
          · rename_i hres
            cases h
            rw [if_pos hres]
          · rename_i hres
            cases h
            rw [if_neg hres]
    · cases h
  · rintro ⟨hname, hvalid, htype, hready, rfl⟩
    rw [if_pos ⟨hname, hvalid⟩, if_neg (not_not.mpr htype), if_neg (by simpa using hready),
      selectedCap]
    split <;> rfl

/-- When `coselect` succeeds, and what it returns. -/
theorem coselect_ok_iff (h : TablesOk s) : s.handle (.coselect args) = some (s', .ok cap) ↔
    ∃ p i o, Selects s args p i o ∧ s' = s ∧ cap = selectedCap i o.type := by
  constructor
  · intro hr
    -- The validator and the lookup have opened the namespace.
    obtain ⟨p, hopen⟩ : ∃ p, Opens s args.nsCap p := by
      rcases validated_cases hr with ⟨-, herr⟩ | ⟨hvalid, hselect⟩
      · cases herr
      · obtain ⟨valid, hcap, hvalid⟩ := Option.bind_eq_some_iff.mp hvalid
        obtain ⟨obj, hlookup, -⟩ := Option.bind_eq_some_iff.mp hselect
        obtain ⟨⟨p, space⟩, hopen, -⟩ := Option.bind_eq_some_iff.mp hlookup
        cases valid with
        | false => cases hvalid
        | true => exact ⟨p, .of_openNs hcap hopen⟩
    rw [handle_coselect hopen, Option.some.injEq, Prod.mk.injEq] at hr
    obtain ⟨rfl, hanswer⟩ := hr
    obtain ⟨e, he, -⟩ := answer_target hanswer
    obtain ⟨o, hl, hn, ht, hobj⟩ := (listing_eq_some h).mp he
    rw [he] at hanswer
    obtain ⟨hname, hvalid, htype, hready, rfl⟩ := answer_eq_ok.mp hanswer
    refine ⟨p, e.object, o, ⟨hopen, hl, hn, ht.trans htype, hname, hvalid, ?_⟩, rfl, ?_⟩
    · rw [ht, hobj]
      exact hready
    · rw [ht]
  · rintro ⟨p, i, o, hsel, rfl, rfl⟩
    have he : listing s' p (nsName args.nsobjName) = some ⟨i, o.type, o.obj⟩ :=
      (listing_eq_some h).mpr ⟨o, hsel.lists, hsel.name, rfl, rfl⟩
    rw [handle_coselect hsel.opens, he,
      answer_eq_ok.mpr ⟨hsel.validName, hsel.validType, hsel.type, hsel.ready, rfl⟩]

/-- `lookup_nsobject` with the name and type of an object finds that object, where the namespace
lists it and it is ready. -/
theorem lookupNsobject_self (h : TablesOk s) (hopen : s.openNs c = some (p, space))
    (ho : s.nsobjects[i]? = some o) : (∃ c', s.lookupNsobject o.name o.type c = some c' ∧
      c'.target = some (.nsobj i)) ↔
      i ∈ space.objects ∧ (o.type ≠ .reservation → o.obj.target ≠ none) := by
  obtain ⟨-, hp⟩ := openNs_target hopen
  simp only [Tables.lookupNsobject, hopen, Option.bind_eq_bind, Option.bind_some]
  have hself : s.objectNamed o.name i = true := objectNamed_iff.mpr ⟨o, ho, rfl⟩
  cases hfind : space.objects.find? (s.objectNamed o.name) with
  | none =>
    constructor
    · rintro ⟨c', heq, htarget⟩
      cases heq
      cases htarget
    · rintro ⟨hi, -⟩
      exact absurd hself (List.find?_eq_none.mp hfind i hi)
  | some j =>
    have hj := List.mem_of_find?_eq_some hfind
    obtain ⟨o', ho', hname⟩ := objectNamed_iff.mp (List.find?_some hfind)
    simp only [ho', Option.bind_some]
    constructor
    · rintro ⟨c', heq, htarget⟩
      split at heq
      · cases heq
        cases htarget
      · split at heq
        · cases heq
          cases htarget
        · rename_i hready
          cases heq
          obtain rfl : j = i := by
            simpa [nsobjPtr] using htarget
          obtain rfl : o' = o := Option.some.inj (ho'.symm.trans ho)
          exact ⟨hj, fun hne hnull => hready ⟨hne, hnull⟩⟩
    · rintro ⟨hi, hready⟩
      -- No other object of the namespace has the name.
      obtain rfl : j = i :=
        h.one_name p j i o' o ⟨space, hp, hj, ho'⟩ ⟨space, hp, hi, ho⟩ hname
      obtain rfl : o' = o := Option.some.inj (ho'.symm.trans ho)
      refine ⟨nsobjPtr j, ?_, rfl⟩
      rw [if_neg (by simp), if_neg (fun hnull => hready hnull.1 hnull.2)]

/-- When `codelete` succeeds, and what it does. -/
theorem codelete_ok_iff (h : TablesOk s) : s.handle (.codelete args) = some (s', .ok cap) ↔
    ∃ p i o, Deletes s args p i o ∧ s' = removeObject s p i ∧ cap = .null := by
  simp only [Tables.handle]
  constructor
  · intro hr
    rcases validated_cases hr with ⟨-, herr⟩ | ⟨hvalid, hr⟩
    · cases herr
    · obtain ⟨opened, -, hvalid⟩ := Option.bind_eq_some_iff.mp hvalid
      obtain ⟨valid, hcap, hvalid⟩ := Option.bind_eq_some_iff.mp hvalid
      cases valid with
      | false => cases hvalid
      | true =>
        rcases delete_cases hr with ⟨-, error, herr⟩ |
          ⟨p, i, space, o, parentObj, hpermits, hreads, hlookup, htarget, hopen, hi, rfl, hreply⟩
        · cases herr
        · cases hreply
          obtain ⟨-, ho⟩ := nsobj_eq_some.mp hreads
          have hready := ((lookupNsobject_self h hopen ho).mp ⟨parentObj, hlookup, htarget⟩).2
          have hlists : Lists s p i o := ⟨space, (openNs_target hopen).2, hi, ho⟩
          have hdel : Deletes s args p i o :=
            ⟨.of_openNs hcap hopen, hvalid, hpermits, hreads, hlists, hready⟩
          exact ⟨p, i, o, hdel, rfl, rfl⟩
  · rintro ⟨p, i, o, hdel, rfl, rfl⟩
    obtain ⟨space, hp, hopen⟩ := hdel.opens.openNs
    obtain ⟨space', hp', hi, ho⟩ := hdel.lists
    obtain rfl : space' = space := Option.some.inj (hp'.symm.trans hp)
    obtain ⟨parentObj, hlookup, htarget⟩ :=
      (lookupNsobject_self h hopen ho).mpr ⟨hi, hdel.ready⟩
    obtain ⟨opened, hunseal, -⟩ := Option.bind_eq_some_iff.mp hopen
    simp [Tables.validated, Tables.validateCodeleteArgs, hunseal, hdel.opens.valid, hdel.valid,
      Tables.namespaceObjectDelete, hdel.permits, hdel.reads, hlookup, htarget,
      Tables.deleteNsobject, hopen, hi, removeObject]

end Success

/-! ### The documented rights -/

section Documented
variable {maxNamespaces maxNsobjects : Nat} {s : Tables}
  {handles : List UInt8 → Option { handle : NsCap // handle.tag = true }}

/-- A request succeeds only with the rights that are documented for it, unless it is a `coselect`
or a `codelete` that finds its object in a namespace to which it has no such rights. -/
theorem rights_enforced_iff
    (h : Reach Tables.step anyAct (initTables maxNamespaces maxNsobjects handles) s) (r : Request) :
    (∀ s' cap, s.handle r = some (s', .ok cap) → RightsHeld r) ↔ ¬Unchecked s r := by
  have hok := tablesOk_reach h
  cases r with
  | coinsert args =>
    refine iff_of_true (fun s' cap hr => ?_) id
    cases handle_effect hr with
    | inserted _ _ _ _ hwr => exact hwr
    | insertedNothing _ _ _ hwr => exact hwr
  | cocreate args =>
    refine iff_of_true (fun s' cap hr => ?_) id
    cases handle_effect hr with
    | found _ _ hwr => exact hwr
    | created _ _ _ _ _ hwr => exact hwr
  | codrop args =>
    refine iff_of_true (fun s' cap hr => ?_) id
    cases handle_effect hr with
    | dropped _ i space hopen hmem =>
      -- A namespace is never among its own children.
      exact absurd (hok.child i space i (openNs_target hopen).2 hmem).1 (Nat.lt_irrefl i)
  | coupdate args => exact iff_of_true (fun _ _ _ => trivial) id
  | coselect args =>
    simp only [RightsHeld, Unchecked, coselect_ok_iff hok]
    constructor
    · rintro hheld ⟨hno, p, i, o, hsel⟩
      exact hno (hheld s _ ⟨p, i, o, hsel, rfl, rfl⟩)
    · rintro hno s' cap ⟨p, i, o, hsel, -⟩
      by_contra hlacks
      exact hno ⟨hlacks, p, i, o, hsel⟩
  | codelete args =>
    have howner : args.nsCap.perms &&& nsPermsOwn = nsPermsOwn →
        Meets args.nsCap.perms nsPermWr :=
      fun hown => meets_of_and_eq hown (by decide)
    simp only [RightsHeld, Unchecked, codelete_ok_iff hok]
    constructor
    · rintro hheld ⟨hno, p, i, o, hdel⟩
      rcases hheld _ _ ⟨p, i, o, hdel, rfl, rfl⟩ with ⟨-, hwr⟩ | hown
      · exact hno hwr
      · exact hno (howner hown)
    · rintro hno s' cap ⟨p, i, o, hdel, -⟩
      by_contra hlacks
      refine hno ⟨fun hwr => hlacks (.inl ⟨hdel.permits, hwr⟩), p, i, o, hdel⟩

end Documented

/-- A `coselect` of `a` with the owner's capability to the root finds it, and holds the right. -/
theorem rights_enforced_iff_owner :
    ∃ s, runFrom Tables.step freshTables [.coinsert coportA] = some s ∧
      (∃ cap, s.handle (.coselect coportA) = some (s, .ok cap)) ∧
      ∀ s' cap, s.handle (.coselect coportA) = some (s', .ok cap) →
        RightsHeld (.coselect coportA) := by
  obtain ⟨s, hs, hreach⟩ := exists_reach_of_isSome Tables.step [.coinsert coportA] freshTables
    (by decide)
  refine ⟨s, hs, ⟨selectedCap 6 .coport, ?_⟩, (rights_enforced_iff hreach _).mpr fun h => ?_⟩
  · have hdec : decide (s.handle (.coselect coportA) = some (s, .ok (selectedCap 6 .coport))) =
        true := eq_of_map_runFrom (fun s => decide (s.handle (.coselect coportA) =
      some (s, .ok (selectedCap 6 .coport)))) hs (by decide)
    exact of_decide_eq_true hdec
  · exact h.1 (by decide)

/-- The capability to the root namespace that confers no rights but to look at its fields. -/
def rootObjCap : NsCap := ((Tables.nsPtr 0).andperm nsPermsObjMask).sealWith .rootNscap

/-- The handle that the `coinsert` of `a` returns. -/
def handleA : NsCap := ((nsobjPtr 6).andperm nsobjPermsOwnMask).clearperm nsobjPermW

/-- Without any right to the root namespace, a `coselect` finds `a` in it, and a `codelete`
deletes `a` from it. -/
theorem select_and_delete_without_rights :
    ∃ s, Reach Tables.step anyAct freshTables s ∧
      (∃ args cap, s.handle (.coselect args) = some (s, .ok cap) ∧
        ¬RightsHeld (.coselect args)) ∧
      ∃ args s' cap, s.handle (.codelete args) = some (s', .ok cap) ∧
        ¬RightsHeld (.codelete args) := by
  obtain ⟨s, hs, hreach⟩ := exists_reach_of_isSome Tables.step [.coinsert coportA] freshTables
    (by decide)
  refine ⟨s, hreach, ⟨{ coportA with nsCap := rootObjCap }, selectedCap 6 .coport, ?_, ?_⟩,
    { coportA with nsCap := rootObjCap, nsobj := handleA }, removeObject s 0 6, .null, ?_, ?_⟩
  · have hdec := eq_of_map_runFrom (fun s => decide (s.handle (.coselect { coportA with
      nsCap := rootObjCap }) = some (s, .ok (selectedCap 6 .coport)))) hs (b := true) (by decide)
    exact of_decide_eq_true hdec
  · simp only [RightsHeld]
    decide
  · have hdec := eq_of_map_runFrom (fun s => decide (s.handle (.codelete { coportA with
      nsCap := rootObjCap, nsobj := handleA }) = some (removeObject s 0 6, .ok .null))) hs
      (b := true) (by decide)
    exact of_decide_eq_true hdec
  · simp only [RightsHeld]
    decide

end Comsg.Proofs.Nsd
