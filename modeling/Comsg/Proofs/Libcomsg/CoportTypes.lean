import Comsg.Libcomsg.CoportTypes
import Comsg.Proofs.Libcomsg.ObjectTypes

/-!
# `Comsg.Proofs.Libcomsg.CoportTypes`: a client tells the types of coports apart

The object type of cocarriers is what a client was first given as one (`firstOffer`), and never
changes after that (`run_learn`).

`coport_types`: a client tells all capabilities of the daemons apart, for good, if and only if it was
first given the object type that ipcd has for cocarriers, or none yet. That is so where it asks only
about capabilities of the daemons, and says of cocarriers only that they are cocarriers.
-/

set_option autoImplicit false

namespace Comsg.Proofs.Libcomsg

open Comsg.Lib
open Comsg.Lib.Cheri
open Comsg.Libcomsg

/-- What a client takes for the object type of cocarriers when it asks about the capability. It is
`0` when there is nothing to learn. -/
def offered (port : Word) : Int :=
  match port.otype with
  | some k => if 34 ≤ k ∧ k ≤ 63 then k else 0
  | none   => 0

/-- The same for a call. -/
def offers : CoportAct → Int
  | .cosend port _     => offered port
  | .corecv port _     => offered port
  | .cosendOob port    => offered port
  | .corecvOob port    => offered port
  | .process port type => if type = CoportType.cocarrier.toInt then gettype port else 0

/-- The first object type that the calls offer. -/
def firstOffer : List CoportAct → Int
  | []          => 0
  | act :: acts => if offers act = 0 then firstOffer acts else offers act

/-- The daemons have sealed the capability with the object type. -/
def SealedAs (s : SystemOtypes) (x : SystemType) (h : Word) : Prop :=
  ∃ c : OwnPtr, cheriSeal c.cap (s.get x).sc = some h

/-- The type of the coports that are sealed with an object type. -/
def portType : SystemType → Option CoportType
  | .copipe    => some .copipe
  | .cochannel => some .cochannel
  | .cocarrier => some .cocarrier
  | _          => none

/-- The client knows the type of each coport, and that other capabilities are none. -/
def TypesRight (s : SystemOtypes) (t : ClientOtypes) : Prop :=
  ∀ x h, SealedAs s x h → (t.coportGettype h).1 = portType x

/-- The client asks about capabilities of the daemons only, and calls nothing else a cocarrier. -/
def Genuine (s : SystemOtypes) : CoportAct → Prop
  | .cosend port _     => ∃ x, SealedAs s x port
  | .corecv port _     => ∃ x, SealedAs s x port
  | .cosendOob port    => ∃ x, SealedAs s x port
  | .corecvOob port    => ∃ x, SealedAs s x port
  | .process port type => type = CoportType.cocarrier.toInt → SealedAs s .cocarrier port

section
variable {root : Sealroot} {t : ClientOtypes} {v : Int} {port : Word} {k : Nat} {x : SystemType}

/-! ### What a client learns -/

/-- `coport_gettype` of a sealed capability. -/
theorem coportGettype_learn (hport : port.otype = some k) :
    ((clientOtypes root).learn v).coportGettype port =
      if (k : Int) = v then (some .cocarrier, (clientOtypes root).learn v)
      else if k = 33 then (some .cochannel, (clientOtypes root).learn v)
      else if k = 32 then (some .copipe, (clientOtypes root).learn v)
      else if v = 0 then
        if 32 ≤ k ∧ k ≤ 63 then (some .cocarrier, (clientOtypes root).learn k)
        else (none, (clientOtypes root).learn v)
      else (none, (clientOtypes root).learn v) := by
  have hrange : ipcdOtypeRangeStart ≤ (k : Int) ∧ (k : Int) ≤ ipcdOtypeRangeEnd ↔
      32 ≤ k ∧ k ≤ 63 := by
    simp only [ipcdOtypeRangeStart, ipcdOtypeRangeEnd]
    omega
  have hcochannel : (k : Int) = (clientOtypes root).cochannel.otype ↔ k = 33 :=
    Int.ofNat_inj
  have hcopipe : (k : Int) = (clientOtypes root).copipe.otype ↔ k = 32 := Int.ofNat_inj
  simp only [ClientOtypes.coportGettype, ClientOtypes.learn, hport, reduceCtorEq, if_false,
    gettype_of_otype hport, hcochannel, hcopipe, hrange]

theorem offered_of_otype (hport : port.otype = some k) :
    offered port = if 34 ≤ k ∧ k ≤ 63 then (k : Int) else 0 := by
  rw [offered, hport]

/-- What is known already is kept. -/
theorem ite_zero_self (v : Int) : (if v = 0 then (0 : Int) else v) = v := by
  split
  next hv => exact hv.symm
  next => rfl

/-- Asking about a capability teaches the client what it offers, if it knew nothing. -/
theorem learn_of_gettype :
    (((clientOtypes root).learn v).coportGettype port).2 =
      (clientOtypes root).learn (if v = 0 then offered port else v) := by
  cases hport : port.otype with
  | none =>
    have hoffered : offered port = 0 := by rw [offered, hport]
    rw [hoffered, ite_zero_self, ClientOtypes.coportGettype, if_pos hport]
  | some k =>
    rw [coportGettype_learn hport, offered_of_otype hport]
    by_cases hv : v = 0
    · subst hv
      rw [if_pos rfl, if_pos rfl]
      by_cases hknown : k = 0 ∨ k = 33 ∨ k = 32
      · have hout : ¬(34 ≤ k ∧ k ≤ 63) := by omega
        rw [if_neg hout]
        obtain rfl | rfl | rfl := hknown <;> rfl
      · have h0 : ¬(k : Int) = 0 := by omega
        have h33 : ¬k = 33 := by omega
        have h32 : ¬k = 32 := by omega
        have hrange : (32 ≤ k ∧ k ≤ 63) ↔ (34 ≤ k ∧ k ≤ 63) := by omega
        simp only [if_neg h0, if_neg h33, if_neg h32, hrange]
        split <;> rfl
    · rw [if_neg hv, if_neg hv]
      split_ifs <;> rfl

/-- `process_coport_handle` learns for a cocarrier only. -/
theorem processCoportHandle_cases {type : Int} {r : Word × ClientOtypes}
    (h : t.processCoportHandle port type = some r) :
    (type ≠ CoportType.cocarrier.toInt ∧ r.2 = t) ∨
      (type = CoportType.cocarrier.toInt ∧
        r.2 = if t.cocarrierOtype = 0 then t.learn (gettype port) else t) := by
  rw [ClientOtypes.processCoportHandle] at h
  by_cases hcocarrier : type = CoportType.cocarrier.toInt
  · have hcopipe : type ≠ CoportType.copipe.toInt := by rw [hcocarrier]; decide
    have hcochannel : type ≠ CoportType.cochannel.toInt := by rw [hcocarrier]; decide
    rw [if_neg hcopipe, if_neg hcochannel, if_pos hcocarrier] at h
    refine .inr ⟨hcocarrier, ?_⟩
    split at h <;> cases h
    next hnew => rw [if_pos hnew]
    next hknown => rw [if_neg hknown]
  · refine .inl ⟨hcocarrier, ?_⟩
    rw [if_neg hcocarrier] at h
    split at h
    next =>
      obtain ⟨p, -, hp⟩ := Option.bind_eq_some_iff.mp h
      cases hp
      rfl
    next =>
      split at h
      next =>
        obtain ⟨p, -, hp⟩ := Option.bind_eq_some_iff.mp h
        cases hp
        rfl
      next => cases h

/-- A call teaches the client what it offers, if it knew nothing. -/
theorem step_learn {act : CoportAct} (h : ((clientOtypes root).learn v).step act = some t) :
    t = (clientOtypes root).learn (if v = 0 then offers act else v) := by
  cases act with
  | cosend port len => exact (Option.some.inj h).symm.trans learn_of_gettype
  | corecv port len => exact (Option.some.inj h).symm.trans learn_of_gettype
  | cosendOob port => exact (Option.some.inj h).symm.trans learn_of_gettype
  | corecvOob port => exact (Option.some.inj h).symm.trans learn_of_gettype
  | process port type =>
    obtain ⟨r, hr, rfl⟩ := Option.map_eq_some_iff.mp h
    cases processCoportHandle_cases hr with
    | inl hother =>
      have hoffers : offers (.process port type) = 0 := if_neg hother.1
      rw [hother.2, hoffers, ite_zero_self]
    | inr hcocarrier =>
      have hoffers : offers (.process port type) = gettype port := if_pos hcocarrier.1
      rw [hcocarrier.2, hoffers]
      exact (apply_ite (clientOtypes root).learn (v = 0) (gettype port) v).symm

/-- After a run the client knows what it was offered first. -/
theorem run_learn (acts : List CoportAct)
    (h : runFrom ClientOtypes.step ((clientOtypes root).learn v) acts = some t) :
    t = (clientOtypes root).learn (if v = 0 then firstOffer acts else v) := by
  induction acts generalizing v with
  | nil =>
    cases h
    split
    next hv => rw [hv, firstOffer]
    next => rfl
  | cons act acts ih =>
    obtain ⟨t', ht', hrest⟩ := Option.bind_eq_some_iff.mp h
    rw [step_learn ht'] at hrest
    rw [ih hrest]
    by_cases hv : v = 0
    · rw [if_pos hv, if_pos hv, firstOffer]
    · rw [if_neg hv, if_neg hv, if_neg hv]

/-! ### What a client says of the capabilities of the daemons -/

theorem SealedAs.otype (h : SealedAs (systemOtypes root) x port) : port.otype = some x.number := by
  obtain ⟨c, hc⟩ := h
  rw [get_systemOtypes] at hc
  have hseal := cheriSeal_typeCap (k := x.number) c.tagged c.plain root.seals
  have heq := Option.some.inj (hc.symm.trans hseal)
  rw [heq]

theorem sealedAs_exists (root : Sealroot) (c : OwnPtr) (x : SystemType) :
    ∃ h, SealedAs (systemOtypes root) x h := by
  have hseal : cheriSeal c.cap ((systemOtypes root).get x).sc =
      some { c.cap with otype := some x.number } := by
    rw [get_systemOtypes]
    exact cheriSeal_typeCap c.tagged c.plain root.seals
  exact ⟨_, c, hseal⟩

/-- A client that knows nothing yet, or the object type of ipcd, is right. -/
theorem typesRight_of_known (hv : v = 0 ∨ v = 34) :
    TypesRight (systemOtypes root) ((clientOtypes root).learn v) := by
  intro x h hsealed
  rw [coportGettype_learn hsealed.otype]
  obtain rfl | rfl := hv <;> cases x <;> rfl

/-- With another object type it is wrong about cocarriers. -/
theorem known_of_typesRight (c : OwnPtr)
    (h : TypesRight (systemOtypes root) ((clientOtypes root).learn v)) : v = 0 ∨ v = 34 := by
  by_contra hno
  have hzero : ¬v = 0 := fun hv => hno (.inl hv)
  have hother : ¬((SystemType.cocarrier.number : Nat) : Int) = v := fun hv => hno (.inr hv.symm)
  obtain ⟨port, hport⟩ := sealedAs_exists root c .cocarrier
  have hright := h .cocarrier port hport
  have h33 : ¬SystemType.cocarrier.number = 33 := by decide
  have h32 : ¬SystemType.cocarrier.number = 32 := by decide
  rw [coportGettype_learn hport.otype, if_neg hother, if_neg h33, if_neg h32, if_neg hzero] at hright
  cases hright

/-- Capabilities of the daemons offer the object type of cocarriers, or nothing. -/
theorem offered_sealed (h : SealedAs (systemOtypes root) x port) :
    offered port = 0 ∨ offered port = 34 := by
  rw [offered_of_otype h.otype]
  cases x <;> first | exact .inl rfl | exact .inr rfl

theorem Genuine.offers {act : CoportAct} (h : Genuine (systemOtypes root) act) :
    offers act = 0 ∨ offers act = 34 := by
  cases act with
  | cosend port len =>
    obtain ⟨x, hx⟩ := h
    exact offered_sealed hx
  | corecv port len =>
    obtain ⟨x, hx⟩ := h
    exact offered_sealed hx
  | cosendOob port =>
    obtain ⟨x, hx⟩ := h
    exact offered_sealed hx
  | corecvOob port =>
    obtain ⟨x, hx⟩ := h
    exact offered_sealed hx
  | process port type =>
    by_cases htype : type = CoportType.cocarrier.toInt
    · refine .inr ((if_pos htype).trans ?_)
      rw [gettype_of_otype (h htype).otype]
      rfl
    · exact .inl (if_neg htype)

theorem firstOffer_genuine {acts : List CoportAct}
    (h : ∀ act ∈ acts, Genuine (systemOtypes root) act) :
    firstOffer acts = 0 ∨ firstOffer acts = 34 := by
  induction acts with
  | nil => exact .inl rfl
  | cons act acts ih =>
    rw [firstOffer]
    split
    next => exact ih fun a ha => h a (List.mem_cons_of_mem act ha)
    next hoffers =>
      cases (h act List.mem_cons_self).offers with
      | inl hzero => exact absurd hzero hoffers
      | inr hlearned => exact .inr hlearned

/-- A call goes to ipcd for a cocarrier only. -/
theorem transport_eq_cocarrier_iff {type : Option CoportType} {len : Nat} :
    transport type len = .ok .cocarrier ↔ type = some .cocarrier := by
  cases type with
  | none => simp [transport]
  | some type => cases type <;> by_cases hlen : len = 0 <;> simp [transport, hlen]

theorem transportOob_eq_cocarrier_iff {type : Option CoportType} :
    transportOob type = .ok .cocarrier ↔ type = some .cocarrier := by
  cases type with
  | none => simp [transportOob]
  | some type => cases type <;> simp [transportOob]

theorem portType_eq_cocarrier_iff : portType x = some .cocarrier ↔ x = .cocarrier := by
  cases x <;> decide

/-- After any calls of a client, it tells the coports of the three types apart, and from everything
else that the daemons seal, if and only if the first object type that it was offered for cocarriers
is the one of ipcd, if any. So it is when the client asks about capabilities of the daemons only, and
calls nothing else a cocarrier. Then its calls go to ipcd for those capabilities that have the object
type that `valid_cocarrier` asks for, and for no others. -/
theorem coport_types (root : Sealroot) (ipcd : Fin 3 → OwnPtr) (coserviced : OwnPtr)
    (nsd : Fin 9 → OwnPtr) (client : Fin 2 → OwnPtr) (s : SystemOtypes) (t₀ t : ClientOtypes)
    (hset : SetUp root ipcd coserviced nsd client s t₀) (acts : List CoportAct)
    (hrun : runFrom ClientOtypes.step t₀ acts = some t) :
    (TypesRight s t ↔ firstOffer acts = 0 ∨ firstOffer acts = s.ipcd.cocarrier.otype) ∧
      ((∀ act ∈ acts, Genuine s act) → TypesRight s t ∧
        ∀ x port, SealedAs s x port → ∀ len,
          ((t.cosend port len).1 = .ok .cocarrier ↔ gettype port = s.ipcd.cocarrier.otype) ∧
          ((t.corecv port len).1 = .ok .cocarrier ↔ gettype port = s.ipcd.cocarrier.otype) ∧
          ((t.cosendOob port).1 = .ok .cocarrier ↔ gettype port = s.ipcd.cocarrier.otype) ∧
          ((t.corecvOob port).1 = .ok .cocarrier ↔ gettype port = s.ipcd.cocarrier.otype)) := by
  obtain ⟨rfl, rfl⟩ := (setUp_iff root ipcd coserviced nsd client s t₀).mp hset
  have hlearned : t = (clientOtypes root).learn (firstOffer acts) :=
    run_learn (v := 0) acts hrun
  have hknown : (systemOtypes root).ipcd.cocarrier.otype = 34 := rfl
  rw [hknown, hlearned]
  refine ⟨⟨known_of_typesRight coserviced, typesRight_of_known⟩, fun hgenuine => ?_⟩
  have hright : TypesRight (systemOtypes root) ((clientOtypes root).learn (firstOffer acts)) :=
    typesRight_of_known (firstOffer_genuine hgenuine)
  refine ⟨hright, fun x port hport len => ?_⟩
  have htype := hright x port hport
  have hiff : (((clientOtypes root).learn (firstOffer acts)).coportGettype port).1 =
      some .cocarrier ↔ gettype port = 34 := by
    rw [htype, portType_eq_cocarrier_iff, gettype_of_otype hport.otype]
    cases x <;> decide
  have hcall := (@transport_eq_cocarrier_iff _ len).trans hiff
  have hcallOob := transportOob_eq_cocarrier_iff.trans hiff
  exact ⟨hcall, hcall, hcallOob, hcallOob⟩

end

/-- A root, and a pointer to an object. -/
def fullRoot : Sealroot where
  cap := ⟨true, none, 0, 4096, 0, 0xffff⟩
  tagged := rfl
  plain := rfl
  base := rfl
  addr := rfl
  length := by decide
  seals := by decide
  unseals := by decide
  global := by decide

def anyPtr : OwnPtr := ⟨⟨true, none, 0x1000, 48, 0x1000, 0xff⟩, rfl, rfl⟩

/-- The pointer, sealed with an object type. -/
def sealedPtr (k : Nat) : Word := { anyPtr.cap with otype := some k }

/-- A client opens a cocarrier and sends to a copipe. Another one takes a copipe for a cocarrier. -/
theorem coport_types_two_clients :
    (∃ t, runFrom ClientOtypes.step (clientOtypes fullRoot)
        [.process (sealedPtr 34) 2, .cosend (sealedPtr 32) 5] = some t ∧
      TypesRight (systemOtypes fullRoot) t) ∧
    ∃ t, runFrom ClientOtypes.step (clientOtypes fullRoot) [.process (sealedPtr 32) 2] = some t ∧
      ¬TypesRight (systemOtypes fullRoot) t := by
  have hset := (setUp_iff fullRoot (fun _ => anyPtr) anyPtr (fun _ => anyPtr) (fun _ => anyPtr)
    _ _).mpr ⟨rfl, rfl⟩
  have hsealed : ∀ x : SystemType,
      SealedAs (systemOtypes fullRoot) x (sealedPtr x.number) := by
    intro x
    refine ⟨anyPtr, ?_⟩
    rw [get_systemOtypes]
    exact cheriSeal_typeCap anyPtr.tagged anyPtr.plain fullRoot.seals
  refine ⟨⟨(clientOtypes fullRoot).learn 34, rfl, ?_⟩,
    ⟨(clientOtypes fullRoot).learn 32, rfl, fun hright => ?_⟩⟩
  · refine ((coport_types fullRoot _ _ _ _ _ _ _ hset
      [.process (sealedPtr 34) 2, .cosend (sealedPtr 32) 5] rfl).2 ?_).1
    simp only [List.forall_mem_cons, List.not_mem_nil, false_implies, implies_true, and_true]
    exact ⟨fun _ => hsealed .cocarrier, .copipe, hsealed .copipe⟩
  · have hoffer := (coport_types fullRoot _ _ _ _ _ _ _ hset [.process (sealedPtr 32) 2]
      rfl).1.mp hright
    exact absurd hoffer (by decide)

end Comsg.Proofs.Libcomsg
