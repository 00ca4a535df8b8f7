import Comsg.Libcomsg.ObjectTypes
import Comsg.Coserviced.Handlers
import Comsg.Ipcd.Validate
import Comsg.Nsd.Table

/-!
# `Comsg.Proofs.Libcomsg.ObjectTypes`: the object types are divided

The daemons take their object types from one root, each from a place that is fixed in its code.

* `makeOtypes_eq`: `make_otypes` gives consecutive numbers, and the capabilities for them.
* `SystemType` are the thirteen object types, and `number` their numbers. No two are the same.
* `otypes_divided`: what is sealed for one of them is unsealed for the same one only, and clients
  can seal copipes and cochannels as ipcd does, but not unseal them.

The models of the daemons have names for object types. `nsdView`, `ipcdView` and `coservicedView`
say which numbers these stand for, and the functions on numbers and on names agree.
-/

set_option autoImplicit false

namespace Comsg.Proofs.Libcomsg

open Comsg.Lib
open Comsg.Lib.Cheri
open Comsg.Libcomsg

/-- The root that the kernel gives. -/
structure Sealroot where
  cap : Word
  tagged : cap.tag = true
  plain : cap.otype = none
  base : cap.base = 0
  addr : cap.addr = 0
  length : 105 ≤ cap.length
  seals : Meets cap.perms permSeal
  unseals : Meets cap.perms permUnseal
  global : Meets cap.perms permGlobal

/-- The object type with the number `k`. -/
def objectType (root : Word) (k : Nat) : ObjectType where
  sc := typeCap root k (permGlobal ||| permSeal)
  usc := typeCap root k (permGlobal ||| permUnseal)
  otype := k

/-! ### `make_otypes` -/

theorem mapM_eq_some {α β : Type} {f : α → Option β} {g : α → β} {xs : List α}
    (h : ∀ x ∈ xs, f x = some (g x)) : xs.mapM f = some (xs.map g) := by
  induction xs with
  | nil => rfl
  | cons x xs ih =>
    have hx := h x List.mem_cons_self
    have hxs := ih fun y hy => h y (List.mem_cons_of_mem x hy)
    simp [List.mapM_cons, hx, hxs]

/-- The part of the root for the numbers from `start` up to `start + n`. -/
def sealRange (root : Sealroot) (start n : Nat) : Word where
  tag := true
  otype := none
  base := start
  length := n
  addr := start
  perms := root.cap.perms

section
variable {root : Sealroot} {start n i : Nat}

theorem setbounds_root (h : start + n ≤ root.cap.length) :
    setbounds (incoffset root.cap start) n = some (sealRange root start n) := by
  have hbase : (incoffset root.cap start).base = 0 := root.base
  have haddr : (incoffset root.cap start).addr = start := by
    rw [incoffset, root.addr, Nat.zero_add]
  have hlength : (incoffset root.cap start).length = root.cap.length := rfl
  have htag : (incoffset root.cap start).tag = true := root.tagged
  have hplain : (incoffset root.cap start).otype = none := root.plain
  rw [setbounds_eq htag hplain (by omega) (by omega), haddr, htag, hplain]
  rfl

theorem maketype_eq (mask : Perms) (hi : i < n) :
    maketype (sealRange root start n) i mask = some (typeCap root.cap (start + i) mask) := by
  have hbase : (setoffset (sealRange root start n) i).base = start := rfl
  have haddr : (setoffset (sealRange root start n) i).addr = start + i := rfl
  have hlength : (setoffset (sealRange root start n) i).length = n := rfl
  rw [maketype, setbounds_eq rfl rfl (by omega) (by omega)]
  rfl

theorem makeOtype_eq (result : OwnPtr) (hi : i < n) :
    makeOtype (sealRange root start n) i result = some (objectType root.cap (start + i)) := by
  have hseal := @cheriSeal_typeCap _ _ (start + i) result.tagged result.plain root.seals
  simp only [makeOtype, makeSealcap, makeUnsealcap, maketype_eq _ hi, Option.bind_eq_bind,
    Option.bind_some, hseal]
  rfl

theorem perms_root (root : Sealroot) :
    root.cap.perms &&& (permSeal ||| permUnseal) = permSeal ||| permUnseal := by
  have hseal := (meets_twoPow root.cap.perms 7).mp root.seals
  have hunseal := (meets_twoPow root.cap.perms 9).mp root.unseals
  refine BitVec.eq_of_getLsbD_eq fun j hj => ?_
  rw [BitVec.getLsbD_and, BitVec.getLsbD_or]
  by_cases h7 : j = 7
  · rw [h7, hseal, Bool.true_and]
  · by_cases h9 : j = 9
    · rw [h9, hunseal, Bool.true_and]
    · have hs : permSeal.getLsbD j = false := by
        simp [permSeal, BitVec.getLsbD_twoPow, Ne.symm h7]
      have hu : permUnseal.getLsbD j = false := by
        simp [permUnseal, BitVec.getLsbD_twoPow, Ne.symm h9]
      rw [hs, hu, Bool.or_false, Bool.and_false]

/-- `make_otypes` gives the next `n` numbers from its root on. -/
theorem makeOtypes_eq {results : List OwnPtr} (hn : n ≤ results.length)
    (hend : start + n ≤ root.cap.length) :
    makeOtypes (incoffset root.cap start) n results =
      some ((List.range n).map fun i => objectType root.cap (start + i),
        incoffset root.cap (start + n)) := by
  have hmap : ((List.range n).mapM fun i => do
      makeOtype (sealRange root start n) i (← results[i]?)) =
        some ((List.range n).map fun i => objectType root.cap (start + i)) := by
    refine mapM_eq_some fun i hi => ?_
    have hi' : i < n := List.mem_range.mp hi
    have hget : results[i]? = some results[i] := List.getElem?_eq_getElem (by omega)
    rw [hget]
    exact makeOtype_eq _ hi'
  have hlength : ¬(sealRange root start n).length < n := lt_irrefl n
  have hperms : ¬(sealRange root start n).perms &&& (permSeal ||| permUnseal) ≠
      permSeal ||| permUnseal := not_not.mpr (perms_root root)
  have hoffset : incoffset (incoffset root.cap start) n = incoffset root.cap (start + n) := by
    simp [incoffset, Nat.add_assoc]
  rw [makeOtypes, setbounds_root hend, Option.bind_eq_bind, Option.bind_some, if_neg hlength,
    if_neg hperms, Option.bind_eq_bind, Option.bind_some, hmap, hoffset]
  rfl

end

/-! ### The constructors -/

/-- The object types of the three daemons. -/
inductive SystemType
  | copipe | cochannel | cocarrier
  | coservice
  | rootNscap | appNscap | privateNscap | publicNscap | libraryNscap
  | reservationNsobj | coserviceNsobj | coportNsobj | commapNsobj
  deriving DecidableEq

namespace SystemType

def number : SystemType → Nat
  | .copipe           => 32
  | .cochannel        => 33
  | .cocarrier        => 34
  | .coservice        => 64
  | .rootNscap        => 96
  | .appNscap         => 97
  | .privateNscap     => 98
  | .publicNscap      => 99
  | .libraryNscap     => 100
  | .reservationNsobj => 101
  | .coserviceNsobj   => 102
  | .coportNsobj      => 103
  | .commapNsobj      => 104

def ofNumber : Nat → Option SystemType
  | 32  => some .copipe
  | 33  => some .cochannel
  | 34  => some .cocarrier
  | 64  => some .coservice
  | 96  => some .rootNscap
  | 97  => some .appNscap
  | 98  => some .privateNscap
  | 99  => some .publicNscap
  | 100 => some .libraryNscap
  | 101 => some .reservationNsobj
  | 102 => some .coserviceNsobj
  | 103 => some .coportNsobj
  | 104 => some .commapNsobj
  | _   => none

theorem ofNumber_number (x : SystemType) : ofNumber x.number = some x := by
  cases x <;> rfl

/-- No two object types have the same number. -/
theorem number_inj {x y : SystemType} : x.number = y.number ↔ x = y := by
  constructor
  · intro h
    have hx := ofNumber_number x
    rw [h, ofNumber_number] at hx
    exact (Option.some.inj hx).symm
  · rintro rfl
    rfl

end SystemType

/-- What the constructors of the three daemons leave. -/
structure SystemOtypes where
  ipcd : IpcdOtypes
  coserviced : ObjectType
  nsd : NsdOtypes

def SystemOtypes.get (s : SystemOtypes) : SystemType → ObjectType
  | .copipe           => s.ipcd.copipe
  | .cochannel        => s.ipcd.cochannel
  | .cocarrier        => s.ipcd.cocarrier
  | .coservice        => s.coserviced
  | .rootNscap        => s.nsd.rootNscap
  | .appNscap         => s.nsd.appNscap
  | .privateNscap     => s.nsd.privateNscap
  | .publicNscap      => s.nsd.publicNscap
  | .libraryNscap     => s.nsd.libraryNscap
  | .reservationNsobj => s.nsd.reservationNsobj
  | .coserviceNsobj   => s.nsd.coserviceNsobj
  | .coportNsobj      => s.nsd.coportNsobj
  | .commapNsobj      => s.nsd.commapNsobj

/-- All constructors have run, on the same root. The pointers are those to the static variables. -/
structure SetUp (root : Sealroot) (ipcd : Fin 3 → OwnPtr) (coserviced : OwnPtr)
    (nsd : Fin 9 → OwnPtr) (client : Fin 2 → OwnPtr) (s : SystemOtypes) (t : ClientOtypes) :
    Prop where
  ipcd : setupIpcdOtypes root.cap (ipcd 0) (ipcd 1) (ipcd 2) = some s.ipcd
  coserviced : setupCoservicedOtypes root.cap coserviced = some s.coserviced
  nsd : setupNsdOtypes root.cap (List.ofFn nsd) = some s.nsd
  client : coportIpcUtilsInit root.cap (client 0) (client 1) = some t

section
variable (root : Sealroot)

/-- The object types of the daemons, by their numbers. -/
def systemOtypes : SystemOtypes where
  ipcd :=
    { copipe := objectType root.cap 32
      cochannel := objectType root.cap 33
      cocarrier := objectType root.cap 34 }
  coserviced := objectType root.cap 64
  nsd :=
    { rootNscap := objectType root.cap 96
      appNscap := objectType root.cap 97
      privateNscap := objectType root.cap 98
      publicNscap := objectType root.cap 99
      libraryNscap := objectType root.cap 100
      reservationNsobj := objectType root.cap 101
      coserviceNsobj := objectType root.cap 102
      coportNsobj := objectType root.cap 103
      commapNsobj := objectType root.cap 104 }

/-- The object types of a client at its start. It can not unseal. -/
def clientOtypes : ClientOtypes where
  copipe := { objectType root.cap 32 with usc := (objectType root.cap 32).usc.untagged }
  cochannel := { objectType root.cap 33 with usc := (objectType root.cap 33).usc.untagged }
  cocarrierOtype := 0

theorem get_systemOtypes (x : SystemType) :
    (systemOtypes root).get x = objectType root.cap x.number := by
  cases x <;> rfl

theorem rootOk {n : Nat} (hn : n ≤ 96) : RootOk n root.cap :=
  ⟨root.tagged, hn.trans (le_trans (by decide) root.length), root.seals⟩

/-- Every constructor succeeds, and this is what it leaves. -/
theorem setUp_iff (ipcd : Fin 3 → OwnPtr) (coserviced : OwnPtr) (nsd : Fin 9 → OwnPtr)
    (client : Fin 2 → OwnPtr) (s : SystemOtypes) (t : ClientOtypes) :
    SetUp root ipcd coserviced nsd client s t ↔ s = systemOtypes root ∧ t = clientOtypes root := by
  have hlength := root.length
  have hipcd : setupIpcdOtypes root.cap (ipcd 0) (ipcd 1) (ipcd 2) =
      some (systemOtypes root).ipcd := by
    rw [setupIpcdOtypes, if_pos (rootOk root (by decide)), makeOtypes_eq (le_refl 3) (by omega)]
    rfl
  have hcoserviced : setupCoservicedOtypes root.cap coserviced =
      some (systemOtypes root).coserviced := by
    rw [setupCoservicedOtypes, if_pos (rootOk root (le_refl 96)),
      makeOtypes_eq (le_refl 1) (by omega)]
    rfl
  have hnsd : setupNsdOtypes root.cap (List.ofFn nsd) = some (systemOtypes root).nsd := by
    rw [setupNsdOtypes, makeOtypes_eq List.length_ofFn.ge (by omega)]
    rfl
  have hclient : coportIpcUtilsInit root.cap (client 0) (client 1) = some (clientOtypes root) := by
    rw [coportIpcUtilsInit, if_pos (rootOk root (by decide)),
      makeOtypes_eq (le_refl 2) (by omega)]
    rfl
  constructor
  · intro h
    have h₁ := Option.some.inj (h.ipcd.symm.trans hipcd)
    have h₂ := Option.some.inj (h.coserviced.symm.trans hcoserviced)
    have h₃ := Option.some.inj (h.nsd.symm.trans hnsd)
    refine ⟨?_, Option.some.inj (h.client.symm.trans hclient)⟩
    cases s
    cases h₁
    cases h₂
    cases h₃
    rfl
  · rintro ⟨rfl, rfl⟩
    exact ⟨hipcd, hcoserviced, hnsd, hclient⟩

end

/-! ### Names and numbers -/

/-- The name that nsd's model has for a number. -/
def nsdView (k : Nat) : Nsd.Otype :=
  match SystemType.ofNumber k with
  | some .rootNscap        => .rootNscap
  | some .appNscap         => .appNscap
  | some .privateNscap     => .privateNscap
  | some .publicNscap      => .publicNscap
  | some .libraryNscap     => .libraryNscap
  | some .reservationNsobj => .reservationNsobj
  | some .coserviceNsobj   => .coserviceNsobj
  | some .coportNsobj      => .coportNsobj
  | some .commapNsobj      => .commapNsobj
  | _                      => .foreign

/-- The name that ipcd's model has for a number. -/
def ipcdView (k : Nat) : Ipcd.Otype :=
  match SystemType.ofNumber k with
  | some .copipe    => .coport .copipe
  | some .cochannel => .coport .cochannel
  | some .cocarrier => .coport .cocarrier
  | _               => .foreign

/-- The name that coserviced's model has for a number. -/
def coservicedView (k : Nat) : Coserviced.SealType :=
  match SystemType.ofNumber k with
  | some .coservice => .coservice
  | _               => .foreign

/-- The capability with a name for its object type. -/
def viewCap {ω : Type} (view : Nat → ω) (c : Word) : BoundedCap ω where
  tag := c.tag
  otype := c.otype.map view
  base := c.base
  length := c.length
  addr := c.addr
  perms := c.perms

/-- `d` is the capability `c` as nsd's model has it, apart from where it points to. -/
structure NsView (c : Word) (d : Nsd.NsCap) : Prop where
  tag : d.tag = c.tag
  perms : d.perms = c.perms
  otype : d.otype = c.otype.map nsdView

theorem ofNumber_eq_some {k : Nat} {x : SystemType} (h : SystemType.ofNumber k = some x) :
    k = x.number := by
  unfold SystemType.ofNumber at h
  split at h <;> cases h <;> rfl

/-- A number is the one of an object type, or no object type has it. -/
theorem number_cases (k : Nat) :
    (∃ x : SystemType, k = x.number) ∨
      SystemType.ofNumber k = none ∧ ∀ x : SystemType, k ≠ x.number := by
  cases h : SystemType.ofNumber k with
  | some x => exact .inl ⟨x, ofNumber_eq_some h⟩
  | none =>
    refine .inr ⟨rfl, fun x hx => ?_⟩
    rw [hx, SystemType.ofNumber_number] at h
    cases h

section
variable {root : Sealroot} {c : Word} {k : Nat}

theorem unseal_objectType (htag : c.tag = true) (hseal : c.otype = some k) :
    cheriUnseal c (objectType root.cap k).usc = some c.unsealed :=
  cheriUnseal_typeCap htag hseal root.unseals root.global

theorem gettype_of_otype (hseal : c.otype = some k) : gettype c = k := by
  rw [gettype, hseal]
  rfl

/-- Two numbers are compared as integers. -/
theorem otype_objectType_iff {l : Nat} : (k : Int) = (objectType root.cap l).otype ↔ k = l :=
  Int.ofNat_inj

theorem nsOtypeToType_view (k : Nat) :
    (systemOtypes root).nsd.nsOtypeToType k = Nsd.nsOtypeToType (nsdView k) := by
  cases number_cases k with
  | inl h =>
    have ⟨x, hx⟩ := h
    subst hx
    cases x <;> rfl
  | inr h =>
    have ⟨hnone, hne⟩ := h
    have hview : nsdView k = .foreign := by rw [nsdView, hnone]
    rw [hview]
    have hroot : k ≠ 96 := hne .rootNscap
    have happ : k ≠ 97 := hne .appNscap
    have hprivate : k ≠ 98 := hne .privateNscap
    have hpublic : k ≠ 99 := hne .publicNscap
    have hlibrary : k ≠ 100 := hne .libraryNscap
    simp only [NsdOtypes.nsOtypeToType, systemOtypes, otype_objectType_iff, if_neg hroot,
      if_neg happ, if_neg hprivate, if_neg hpublic, if_neg hlibrary]
    rfl

theorem nsobjOtypeToType_view (k : Nat) :
    (systemOtypes root).nsd.nsobjOtypeToType k = Nsd.nsobjOtypeToType (nsdView k) := by
  cases number_cases k with
  | inl h =>
    have ⟨x, hx⟩ := h
    subst hx
    cases x <;> rfl
  | inr h =>
    have ⟨hnone, hne⟩ := h
    have hview : nsdView k = .foreign := by rw [nsdView, hnone]
    rw [hview]
    have hreservation : k ≠ 101 := hne .reservationNsobj
    have hcoservice : k ≠ 102 := hne .coserviceNsobj
    have hcoport : k ≠ 103 := hne .coportNsobj
    have hcommap : k ≠ 104 := hne .commapNsobj
    simp only [NsdOtypes.nsobjOtypeToType, systemOtypes, otype_objectType_iff, if_neg hcoport,
      if_neg hcoservice, if_neg hcommap, if_neg hreservation]
    rfl

/-- The capability that nsd unseals a namespace with is the one for its object type. -/
theorem getNsUnsealcap_view (h : Nsd.nsOtypeToType (nsdView k) ≠ .invalidNs) :
    (systemOtypes root).nsd.getNsUnsealcap (Nsd.nsOtypeToType (nsdView k)) =
      some (objectType root.cap k).usc := by
  cases number_cases k with
  | inl hx =>
    have ⟨x, hx⟩ := hx
    subst hx
    cases x <;> first | rfl | exact absurd rfl h
  | inr hx =>
    have hview : nsdView k = .foreign := by rw [nsdView, hx.1]
    rw [hview] at h
    exact absurd rfl h

theorem getNsobjUnsealcap_view (h : Nsd.nsobjOtypeToType (nsdView k) ≠ .invalidNsobj) :
    (systemOtypes root).nsd.getNsobjUnsealcap (Nsd.nsobjOtypeToType (nsdView k)) =
      some (objectType root.cap k).usc := by
  cases number_cases k with
  | inl hx =>
    have ⟨x, hx⟩ := hx
    subst hx
    cases x <;> first | rfl | exact absurd rfl h
  | inr hx =>
    have hview : nsdView k = .foreign := by rw [nsdView, hx.1]
    rw [hview] at h
    exact absurd rfl h

theorem NsView.null : NsView .null .null := ⟨rfl, rfl, rfl⟩

theorem NsView.unsealed {d : Nsd.NsCap} (h : NsView c d) : NsView c.unsealed d.unsealed :=
  ⟨h.tag, h.perms, rfl⟩

/-- `unseal_ns` on numbers and on names. -/
theorem unsealNs_view {d : Nsd.NsCap} (h : NsView c d) :
    Option.Rel NsView ((systemOtypes root).nsd.unsealNs c) (Nsd.unsealNs d) := by
  have hotype := h.otype
  have htag := h.tag
  cases hc : c.otype with
  | none =>
    rw [hc] at hotype
    simp only [NsdOtypes.unsealNs, Nsd.unsealNs, hc, hotype, if_pos, Option.map_none]
    exact .some h
  | some k =>
    rw [hc] at hotype
    simp only [NsdOtypes.unsealNs, Nsd.unsealNs, hc, hotype, Option.map_some, reduceCtorEq,
      if_false, gettype_of_otype hc, nsOtypeToType_view, htag]
    by_cases hvalid : Nsd.nsOtypeToType (nsdView k) = .invalidNs
    · rw [if_pos hvalid, if_pos hvalid]
      exact .some .null
    · rw [if_neg hvalid, if_neg hvalid]
      cases ht : c.tag with
      | false => exact .none
      | true =>
        rw [getNsUnsealcap_view hvalid]
        simp only [Option.bind_eq_bind, Option.bind_some, unseal_objectType ht hc]
        exact .some h.unsealed

/-- `unseal_nsobj` on numbers and on names. -/
theorem unsealNsobj_view {d : Nsd.NsCap} (h : NsView c d) (htag : c.tag = true) :
    Option.Rel NsView ((systemOtypes root).nsd.unsealNsobj c) (some (Nsd.unsealNsobj d)) := by
  have hotype := h.otype
  cases hc : c.otype with
  | none =>
    rw [hc] at hotype
    simp only [NsdOtypes.unsealNsobj, Nsd.unsealNsobj, hc, hotype, if_pos, Option.map_none]
    exact .some h
  | some k =>
    rw [hc] at hotype
    simp only [NsdOtypes.unsealNsobj, Nsd.unsealNsobj, hc, hotype, Option.map_some, reduceCtorEq,
      if_false, gettype_of_otype hc, nsobjOtypeToType_view]
    by_cases hvalid : Nsd.nsobjOtypeToType (nsdView k) = .invalidNsobj
    · rw [if_pos hvalid, if_pos hvalid]
      exact .some .null
    · rw [if_neg hvalid, if_neg hvalid, getNsobjUnsealcap_view hvalid]
      simp only [Option.bind_eq_bind, Option.bind_some, unseal_objectType htag hc]
      exact .some h.unsealed

/-- `unseal_coport` on numbers and on names. -/
theorem unsealCoport_view (htag : c.tag = true) :
    ((systemOtypes root).ipcd.unsealCoport c).map (viewCap ipcdView) =
      Ipcd.PortTables.unsealCoport (viewCap ipcdView c) := by
  cases hc : c.otype with
  | none => simp [IpcdOtypes.unsealCoport, Ipcd.PortTables.unsealCoport, viewCap, hc]
  | some k =>
    have hopen := @unseal_objectType root c k htag hc
    simp only [IpcdOtypes.unsealCoport, Ipcd.PortTables.unsealCoport, hc, viewCap, systemOtypes,
      Option.map_some, reduceCtorEq, if_false, gettype_of_otype hc, otype_objectType_iff]
    cases number_cases k with
    | inl hx =>
      have ⟨x, hx⟩ := hx
      subst hx
      have hmapped := congrArg (Option.map (viewCap ipcdView)) hopen
      cases x with
      | copipe | cochannel | cocarrier => exact hmapped
      | _ => rfl
    | inr hx =>
      have hview : ipcdView k = .foreign := by rw [ipcdView, hx.1]
      have hcopipe : k ≠ 32 := hx.2 .copipe
      have hcochannel : k ≠ 33 := hx.2 .cochannel
      have hcocarrier : k ≠ 34 := hx.2 .cocarrier
      rw [hview, if_neg hcocarrier, if_neg hcopipe, if_neg hcochannel]
      rfl

/-- `unseal_endpoint` on numbers and on names. -/
theorem unsealEndpoint_view (htag : c.tag = true) :
    (unsealEndpoint (systemOtypes root).coserviced c).map (viewCap coservicedView) =
      some (Coserviced.unsealEndpoint (viewCap coservicedView c)) := by
  cases hc : c.otype with
  | none => simp [unsealEndpoint, Coserviced.unsealEndpoint, viewCap, hc]
  | some k =>
    have hopen := @unseal_objectType root c k htag hc
    simp only [unsealEndpoint, Coserviced.unsealEndpoint, hc, viewCap, systemOtypes,
      Option.map_some, reduceCtorEq, if_false, gettype_of_otype hc, ne_eq, otype_objectType_iff]
    cases number_cases k with
    | inl hx =>
      have ⟨x, hx⟩ := hx
      subst hx
      have hmapped := congrArg (Option.map (viewCap coservicedView)) hopen
      cases x with
      | coservice => exact hmapped
      | _ => rfl
    | inr hx =>
      have hview : coservicedView k = .foreign := by rw [coservicedView, hx.1]
      have hcoservice : ¬k = 64 := hx.2 .coservice
      rw [hview, if_pos hcoservice]
      rfl

/-- `is_valid_endpoint` on numbers and on names. -/
theorem isValidEndpoint_view :
    isValidEndpoint (systemOtypes root).coserviced c =
      Coserviced.isValidEndpoint (viewCap coservicedView c) := by
  unfold isValidEndpoint Coserviced.isValidEndpoint
  refine congrArg (c.tag && ·) (decide_eq_decide.mpr ?_)
  cases hc : c.otype with
  | none => simp [gettype, viewCap, hc, systemOtypes, objectType]
  | some k =>
    have hname : coservicedView k = .coservice ↔ k = 64 := by
      cases number_cases k with
      | inl hx =>
        have ⟨x, hx⟩ := hx
        subst hx
        cases x <;> decide
      | inr hx =>
        have hview : coservicedView k = .foreign := by rw [coservicedView, hx.1]
        rw [hview]
        exact ⟨(by rintro ⟨⟩), fun h => absurd h (hx.2 .coservice)⟩
    rw [gettype_of_otype hc]
    simp only [systemOtypes, otype_objectType_iff, viewCap, hc, Option.map_some, Option.some.injEq,
      hname]

end

/-- The constructors of the daemons and of a client succeed. What is then sealed for one of the
thirteen object types is unsealed for the same one, and for no other. A client seals copipes and
cochannels as ipcd does and unseals nothing. Each daemon does with a capability what its model does
that has names for the object types. -/
theorem otypes_divided (root : Sealroot) (ipcd : Fin 3 → OwnPtr) (coserviced : OwnPtr)
    (nsd : Fin 9 → OwnPtr) (client : Fin 2 → OwnPtr) :
    ∃ s t, SetUp root ipcd coserviced nsd client s t ∧
      (∀ (c : OwnPtr) (x y : SystemType),
        ((cheriSeal c.cap (s.get x).sc).bind fun c' => cheriUnseal c' (s.get y).usc) =
          if x = y then some c.cap else none) ∧
      (t.copipe.sc = s.ipcd.copipe.sc ∧ t.cochannel.sc = s.ipcd.cochannel.sc ∧
        ∀ c, cheriUnseal c t.copipe.usc = none ∧ cheriUnseal c t.cochannel.usc = none) ∧
      (∀ c d, NsView c d → Option.Rel NsView (s.nsd.unsealNs c) (Nsd.unsealNs d) ∧
        (c.tag = true →
          Option.Rel NsView (s.nsd.unsealNsobj c) (some (Nsd.unsealNsobj d)))) ∧
      ∀ c, isValidEndpoint s.coserviced c =
          Coserviced.isValidEndpoint (viewCap coservicedView c) ∧
        (c.tag = true →
          (s.ipcd.unsealCoport c).map (viewCap ipcdView) =
              Ipcd.PortTables.unsealCoport (viewCap ipcdView c) ∧
            (unsealEndpoint s.coserviced c).map (viewCap coservicedView) =
              some (Coserviced.unsealEndpoint (viewCap coservicedView c))) := by
  refine ⟨systemOtypes root, clientOtypes root, (setUp_iff root ipcd coserviced nsd client _ _).mpr
    ⟨rfl, rfl⟩, fun c x y => ?_, ⟨rfl, rfl, fun c => ?_⟩, fun c d h => ?_, fun c => ?_⟩
  · have hround := cheriUnseal_cheriSeal (k := x.number) (l := y.number) c.tagged c.plain root.seals
      root.unseals root.global
    rw [get_systemOtypes, get_systemOtypes]
    simp only [SystemType.number_inj] at hround
    exact hround
  · have huntagged : ∀ ct : Word, ¬Unseals c ct.untagged := by
      intro ct h
      exact Bool.false_ne_true h.2.2.1
    exact ⟨if_neg (huntagged _), if_neg (huntagged _)⟩
  · exact ⟨unsealNs_view h, unsealNsobj_view h⟩
  · exact ⟨isValidEndpoint_view, fun htag => ⟨unsealCoport_view htag, unsealEndpoint_view htag⟩⟩

end Comsg.Proofs.Libcomsg
