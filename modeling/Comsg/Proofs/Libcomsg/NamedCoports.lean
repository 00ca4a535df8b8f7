import Comsg.Lib.Threads
import Comsg.Libcomsg.NamedCoports
import Comsg.Proofs.Nsd.Confinement

/-!
# `Comsg.Proofs.Libcomsg.NamedCoports`: a name never leads to a coport that its opener closes

A thread in `open_named_coport` is the only one that has its coport until nsd has it under the name.
So nobody else closes it before, and if nsd refuses it, there is no object that leads to it when the
thread closes it.

* `NamedInv`: the coports of the threads are different ones, and an object leads to none that only a
  thread has (`namedInv_step`).
* `named_coports`: what a call of `open_named_coport` comes to, in any run.
-/

set_option autoImplicit false

namespace Comsg.Proofs.Libcomsg

open Comsg.Lib
open Comsg.Libcomsg
open Comsg.Ipcd (AnyPort maxCoports sizeofCoportTblEntry)
open Comsg.Nsd (NsCap Nsobject asciiBytes)
open Comsg.Proofs.Nsd

/-- What `delete_nsobject` leaves of an object. -/
def wipedObject : Nsobject := ⟨List.replicate nsNameLen 0, .invalidNsobj, .null⟩

/-- Entry `j` is the object of the coport under its name, or was deleted. -/
def NamedAs (s : Nsd.Tables) (j : Nat) (name : List UInt8) (handle : NsCap) : Prop :=
  s.nsobjects[j]? = some ⟨strncpy nsNameLen name, .coport, handle⟩ ∨
    s.nsobjects[j]? = some wipedObject

/-- What nobody else has touched is as `init_coport` has left it, or closed. -/
def OwnState (o : Opener) (i : Nat) (port : AnyPort) : Prop :=
  if o.pc = .failed (some i) then
    Ipcd.closePort (AnyPort.init o.type) = some (port, .call .closed)
  else port = AnyPort.init o.type

/-- No object of nsd leads to the coport. -/
def Unnamed (l : PortLayout) (s : Nsd.Tables) (type : CoportType) (i : Nat) : Prop :=
  ∀ object ∈ s.nsobjects, object.obj.target ≠ some (.client (l.entry type i))

/-- The coports of the threads are different ones, and what is known of them. -/
structure NamedInv (l : PortLayout) (s : NamedPorts) : Prop where
  count : ∀ type, (s.ports type).length ≤ maxCoports
  unopened : ∀ type i, i < maxCoports → (s.ports type).length ≤ i → Unnamed l s.nsd type i
  fits : ∀ (k : Nat) o i, s.openers[k]? = some o → o.port = some i → i < (s.ports o.type).length
  apart : ∀ (k k' : Nat) o o' i, s.openers[k]? = some o → s.openers[k']? = some o' → k ≠ k' →
    o.type = o'.type → o.port = some i → o'.port ≠ some i
  unnamed : ∀ (k : Nat) o i, s.openers[k]? = some o → o.ownPort = some i →
    Unnamed l s.nsd o.type i
  own : ∀ (k : Nat) o i, s.openers[k]? = some o → o.ownPort = some i →
    ∃ port, (s.ports o.type)[i]? = some port ∧ OwnState o i port
  named : ∀ (k : Nat) o i obj, s.openers[k]? = some o → o.pc = .returned i obj →
    ∃ j, obj.target = some (.nsobj j) ∧ NamedAs s.nsd j o.name (l.handle o.type i)

section
variable {l : PortLayout} {s s' : NamedPorts} {t t' : Nsd.Tables} {o : Opener} {k i : Nat}

/-- A coport that only the thread has is its coport. -/
theorem Opener.port_of_own (h : o.ownPort = some i) : o.port = some i := by
  unfold Opener.ownPort at h
  unfold Opener.port
  split at h
  · cases h
    simp only [*]
  · cases h
    simp only [*]
  · cases h
    simp only [*]
  · cases h

theorem handle_target (l : PortLayout) (type : CoportType) (i : Nat) :
    (l.handle type i).target = some (.client (l.entry type i)) := rfl

theorem strncpy_strncpy (n : Nat) (src : List UInt8) :
    strncpy n (strncpy n src) = strncpy n src := by
  show cstr n (strncpy n src) ++
    List.replicate (n - (cstr n (strncpy n src)).length) 0 = strncpy n src
  rw [cstr_strncpy]
  rfl

/-! ### Requests to nsd -/

/-- The object of a coport stays, or is deleted. -/
theorem NamedAs.effect {r : Nsd.Request} {reply : Nsd.Reply} {j : Nat} {name : List UInt8}
    {handle : NsCap} (h : NamedAs t j name handle) (he : Effect t r t' reply) :
    NamedAs t' j name handle := by
  have hlt : j < t.nsobjects.length := by
    cases h with
    | inl hobj => exact (List.getElem?_eq_some_iff.mp hobj).1
    | inr hobj => exact (List.getElem?_eq_some_iff.mp hobj).1
  have hkept (hsame : t'.nsobjects[j]? = t.nsobjects[j]?) : NamedAs t' j name handle := by
    unfold NamedAs
    rw [hsame]
    exact h
  cases he with
  | refused | insertedNothing | selected | found | created | dropped => exact h
  | inserted args p space cap =>
    refine hkept ?_
    rw [addObject_nsobjects, if_neg (Nat.ne_of_lt hlt)]
  | deleted args p i space old =>
    by_cases hij : j = i
    · subst hij
      refine .inr ?_
      obtain ⟨x, hx⟩ : ∃ x, t.nsobjects[j]? = some x := ⟨_, List.getElem?_eq_getElem hlt⟩
      simp only [removeObject, List.getElem?_modify, hx, if_true, Option.map_eq_map,
        Option.map_some, wipedObject]
    · exact hkept (removeObject_nsobjects hij)
  | updated args i old cap hcap hold hreserved =>
    have hne : i ≠ j := by
      rintro rfl
      cases h with
      | inl hobj =>
        rw [hobj] at hold
        cases hold
        cases hreserved
      | inr hobj =>
        rw [hobj] at hold
        cases hold
        cases hreserved
    refine hkept ?_
    rw [fillObject_nsobjects]
    simp only [if_neg hne, Option.map_id']

/-- No object leads to the coport after a request that does not store such a handle. -/
theorem Unnamed.effect {r : Nsd.Request} {reply : Nsd.Reply} {type : CoportType}
    (h : Unnamed l t type i) (he : Effect t r t' reply)
    (hstored : ∀ c ∈ r.stored, c.target ≠ some (.client (l.entry type i))) :
    Unnamed l t' type i := by
  intro object hmem htarget
  obtain ⟨j, hj⟩ := List.mem_iff_getElem?.mp hmem
  obtain hnull | hin | ⟨old, hold, heq⟩ := stored_effect he hj
  · rw [hnull] at htarget
    cases htarget
  · exact hstored _ hin htarget
  · rw [heq] at htarget
    exact h old (List.mem_of_getElem? hold) htarget

/-- A request of others. -/
theorem NamedInv.request (h : NamedInv l s) {r : Nsd.Request} {reply : Nsd.Reply}
    (hok : NamedOk l s (.request r)) (he : Effect s.nsd r t' reply) :
    NamedInv l { s with nsd := t' } where
  count := h.count
  unopened type i hi hle := (h.unopened type i hi hle).effect he fun c hc htarget =>
    Nat.not_lt.mpr hle (hok c hc type i hi htarget).1
  fits := h.fits
  apart := h.apart
  unnamed k o i ho hown := by
    have hlt : i < maxCoports :=
      Nat.lt_of_lt_of_le (h.fits k o i ho (Opener.port_of_own hown)) (h.count o.type)
    exact (h.unnamed k o i ho hown).effect he fun c hc htarget =>
      (hok c hc o.type i hlt htarget).2 o (List.mem_of_getElem? ho) rfl hown
  own := h.own
  named k o i obj ho hpc := by
    obtain ⟨j, hj, hnamed⟩ := h.named k o i obj ho hpc
    exact ⟨j, hj, hnamed.effect he⟩

/-! ### The threads -/

/-- A thread goes on. What holds of its coport then is given. -/
theorem NamedInv.setPc (h : NamedInv l s) (ho : s.openers[k]? = some o) (pc : OpenerPc)
    (hport : ∀ i, Opener.port { o with pc := pc } = some i → i < (s.ports o.type).length ∧
      ∀ (k' : Nat) o', s.openers[k']? = some o' → k' ≠ k → o'.type = o.type → o'.port ≠ some i)
    (hown : ∀ i, Opener.ownPort { o with pc := pc } = some i → Unnamed l s.nsd o.type i ∧
      ∃ port, (s.ports o.type)[i]? = some port ∧ OwnState { o with pc := pc } i port)
    (hnamed : ∀ i obj, pc = .returned i obj →
      ∃ j, obj.target = some (.nsobj j) ∧ NamedAs s.nsd j o.name (l.handle o.type i)) :
    NamedInv l { s with openers := s.openers.set k { o with pc := pc } } where
  count := h.count
  unopened := h.unopened
  fits k' o' i ho' hi := by
    obtain ⟨rfl, rfl⟩ | ⟨-, hold⟩ := getElem?_set_cases ho'
    · exact (hport i hi).1
    · exact h.fits k' o' i hold hi
  apart k₁ k₂ o₁ o₂ i h₁ h₂ hne htype hi := by
    obtain ⟨rfl, rfl⟩ | ⟨hk₁, hold₁⟩ := getElem?_set_cases h₁
    · obtain ⟨rfl, rfl⟩ | ⟨hk₂, hold₂⟩ := getElem?_set_cases h₂
      · exact absurd rfl hne
      · exact (hport i hi).2 k₂ o₂ hold₂ hk₂ htype.symm
    · obtain ⟨rfl, rfl⟩ | ⟨hk₂, hold₂⟩ := getElem?_set_cases h₂
      · exact fun hi₂ => (hport i hi₂).2 k₁ o₁ hold₁ hk₁ htype hi
      · exact h.apart k₁ k₂ o₁ o₂ i hold₁ hold₂ hne htype hi
  unnamed k' o' i ho' hi := by
    obtain ⟨rfl, rfl⟩ | ⟨-, hold⟩ := getElem?_set_cases ho'
    · exact (hown i hi).1
    · exact h.unnamed k' o' i hold hi
  own k' o' i ho' hi := by
    obtain ⟨rfl, rfl⟩ | ⟨-, hold⟩ := getElem?_set_cases ho'
    · exact (hown i hi).2
    · exact h.own k' o' i hold hi
  named k' o' i obj ho' hpc := by
    obtain ⟨rfl, rfl⟩ | ⟨-, hold⟩ := getElem?_set_cases ho'
    · exact hnamed i obj hpc
    · exact h.named k' o' i obj hold hpc

/-- The process of a thread ends. -/
theorem NamedInv.exit (h : NamedInv l s) (ho : s.openers[k]? = some o) :
    NamedInv l { s with openers := s.openers.set k { o with pc := .exited } } :=
  h.setPc ho .exited (fun i hi => by cases hi) (fun i hi => by cases hi) fun i obj hpc => by cases hpc

/-- Nobody else has the coport of a thread. -/
theorem NamedInv.others (h : NamedInv l s) (ho : s.openers[k]? = some o) (hi : o.port = some i) :
    ∀ (k' : Nat) o', s.openers[k']? = some o' → k' ≠ k → o'.type = o.type → o'.port ≠ some i :=
  fun k' o' ho' hne htype hi' => h.apart k' k o' o i ho' ho hne htype hi' hi

/-- A call of `open_named_coport` begins. -/
theorem NamedInv.begin (h : NamedInv l s) (name : List UInt8) (type : CoportType) (ns : NsCap) :
    NamedInv l { s with openers := s.openers ++ [⟨name, type, ns, .coopen⟩] } where
  count := h.count
  unopened := h.unopened
  fits k o i ho hi := by
    obtain hold | rfl := getElem?_concat_cases ho
    · exact h.fits k o i hold hi
    · cases hi
  apart k₁ k₂ o₁ o₂ i h₁ h₂ hne htype hi := by
    obtain hold₁ | rfl := getElem?_concat_cases h₁
    · obtain hold₂ | rfl := getElem?_concat_cases h₂
      · exact h.apart k₁ k₂ o₁ o₂ i hold₁ hold₂ hne htype hi
      · exact fun hi₂ => by cases hi₂
    · cases hi
  unnamed k o i ho hi := by
    obtain hold | rfl := getElem?_concat_cases ho
    · exact h.unnamed k o i hold hi
    · cases hi
  own k o i ho hi := by
    obtain hold | rfl := getElem?_concat_cases ho
    · exact h.own k o i hold hi
    · cases hi
  named k o i obj ho hpc := by
    obtain hold | rfl := getElem?_concat_cases ho
    · exact h.named k o i obj hold hpc
    · cases hpc

/-! ### The coports -/

/-- A coport that no thread has for itself changes. -/
theorem NamedInv.setPort (h : NamedInv l s) (type : CoportType) (i : Nat) (port : AnyPort)
    (hfree : ∀ o ∈ s.openers, o.type = type → o.ownPort ≠ some i) :
    NamedInv l (s.setPort type i port) := by
  have hlength : ∀ type', ((s.setPort type i port).ports type').length = (s.ports type').length := by
    intro type'
    by_cases htype : type' = type
    · subst htype
      simp only [NamedPorts.setPort, Function.update_self, List.length_set]
    · simp only [NamedPorts.setPort, Function.update_of_ne htype]
  refine ⟨fun type' => (hlength type').trans_le (h.count type'), fun type' j hj hle => ?_,
    fun k o j ho hj => ?_, h.apart, h.unnamed, fun k o j ho hj => ?_, h.named⟩
  · rw [hlength] at hle
    exact h.unopened type' j hj hle
  · rw [hlength]
    exact h.fits k o j ho hj
  · obtain ⟨p, hp, hstate⟩ := h.own k o j ho hj
    refine ⟨p, ?_, hstate⟩
    by_cases htype : o.type = type
    · subst htype
      have hne : i ≠ j := by
        rintro rfl
        exact hfree o (List.mem_of_getElem? ho) rfl hj
      simp only [NamedPorts.setPort, Function.update_self, List.getElem?_set_ne hne, hp]
    · simp only [NamedPorts.setPort, Function.update_of_ne htype, hp]

/-- ipcd opens a coport. -/
theorem NamedInv.openPort (h : NamedInv l s) {type : CoportType}
    (hopen : s.openPort type = some (s', i)) :
    NamedInv l s' ∧ s'.openers = s.openers ∧ s'.nsd = s.nsd ∧ i = (s.ports type).length ∧
      i < maxCoports ∧ (s'.ports type)[i]? = some (AnyPort.init type) := by
  unfold NamedPorts.openPort at hopen
  split at hopen
  · cases hopen
  · next hroom =>
    cases hopen
    have hself : Function.update s.ports type (s.ports type ++ [AnyPort.init type]) type =
        s.ports type ++ [AnyPort.init type] := Function.update_self ..
    have hgrows : ∀ type' (j : Nat) p, (s.ports type')[j]? = some p →
        (Function.update s.ports type (s.ports type ++ [AnyPort.init type]) type')[j]? =
          some p := by
      intro type' j p hp
      by_cases htype : type' = type
      · subst htype
        rw [hself, List.getElem?_append_left (List.getElem?_eq_some_iff.mp hp).1, hp]
      · rw [Function.update_of_ne htype, hp]
    have hle : ∀ type', (s.ports type').length ≤
        (Function.update s.ports type (s.ports type ++ [AnyPort.init type]) type').length := by
      intro type'
      by_cases htype : type' = type
      · subst htype
        rw [hself, List.length_append]
        exact Nat.le_add_right _ _
      · rw [Function.update_of_ne htype]
    have hlt : (s.ports type).length < maxCoports :=
      Nat.lt_of_le_of_ne (h.count type) hroom
    refine ⟨⟨fun type' => ?_, fun type' j hj hlej => ?_, fun k o j ho hj => ?_, h.apart, h.unnamed,
      fun k o j ho hj => ?_, h.named⟩, rfl, rfl, rfl, hlt, ?_⟩
    · by_cases htype : type' = type
      · subst htype
        show (Function.update s.ports type' _ type').length ≤ _
        rw [hself, List.length_append]
        exact hlt
      · show (Function.update s.ports type _ type').length ≤ _
        rw [Function.update_of_ne htype]
        exact h.count type'
    · exact h.unopened type' j hj (Nat.le_trans (hle type') hlej)
    · exact Nat.lt_of_lt_of_le (h.fits k o j ho hj) (hle o.type)
    · obtain ⟨p, hp, hstate⟩ := h.own k o j ho hj
      exact ⟨p, hgrows o.type j p hp, hstate⟩
    · show (Function.update s.ports type _ type)[(s.ports type).length]? = _
      rw [hself]
      exact List.getElem?_concat_length

/-! ### The calls of a thread -/

/-- nsd has not put the coport under the name. -/
theorem NamedInv.refused (h : NamedInv l s) (ho : s.openers[k]? = some o)
    (hpc : o.pc = .coinsert i) :
    NamedInv l { s with openers := s.openers.set k { o with pc := .coclose i } } := by
  have hi : o.port = some i := by simp only [Opener.port, hpc]
  have hown : o.ownPort = some i := by simp only [Opener.ownPort, hpc]
  obtain ⟨port, hport, hstate⟩ := h.own k o i ho hown
  have hinit : port = AnyPort.init o.type := by
    simpa only [OwnState, hpc, reduceCtorEq, if_false] using hstate
  refine h.setPc ho _ (fun j hj => ?_) (fun j hj => ?_) fun j obj hj => by cases hj
  · cases hj
    exact ⟨h.fits k o i ho hi, h.others ho hi⟩
  · cases hj
    refine ⟨h.unnamed k o i ho hown, port, hport, ?_⟩
    simpa only [OwnState, reduceCtorEq, if_false] using hinit

/-- What nsd answers to the `coinsert` of a thread. -/
theorem insert_reply {reply : Nsd.Reply}
    (hr : t.handle (.coinsert (o.insertArgs l i)) = some (t', reply)) :
    (∃ error, reply = .err error ∧ t' = t) ∨
      ∃ obj j, reply = .ok obj ∧ obj.target = some (.nsobj j) ∧
        NamedAs t' j o.name (l.handle o.type i) := by
  cases handle_effect hr with
  | refused _ error => exact .inl ⟨error, rfl, rfl⟩
  | inserted args p space obj hwr hopen hname htype hobjects hspaces hcap =>
    refine .inr ⟨obj, t.nsobjects.length, rfl, ?_, .inl ?_⟩
    · rw [hcap, insertedCap_target]
    · rw [addObject_nsobjects, if_pos rfl]
      simp only [insertedObject, insertedHandle, Opener.insertArgs, strncpy_strncpy]
      rfl
  | insertedNothing args p space hwr hopen htype => cases htype

/-- After the `coinsert` of a thread, nsd leads to its coport at most. -/
theorem NamedInv.insert (h : NamedInv l s) (ho : s.openers[k]? = some o)
    (hi : o.port = some i) {reply : Nsd.Reply}
    (hr : s.nsd.handle (.coinsert (o.insertArgs l i)) = some (t', reply)) :
    NamedInv l { s with nsd := t', openers := s.openers.set k { o with pc := .exited } } := by
  refine (h.exit ho).request (r := .coinsert (o.insertArgs l i)) ?_ (handle_effect hr)
  intro c hc type j hj htarget
  have hlt : i < (s.ports o.type).length := h.fits k o i ho hi
  obtain rfl : c = l.handle o.type i := List.mem_singleton.mp hc
  obtain ⟨rfl, rfl⟩ := l.apart o.type type i j (Nat.lt_of_lt_of_le hlt (h.count o.type)) hj
    (Nsd.Target.client.inj (Option.some.inj htarget))
  refine ⟨hlt, fun o' hmem htype hown => ?_⟩
  obtain ⟨k', hk'⟩ := List.mem_iff_getElem?.mp hmem
  obtain ⟨rfl, rfl⟩ | ⟨hne, hold⟩ := getElem?_set_cases hk'
  · cases hown
  · exact h.others ho hi k' o' hold hne htype (Opener.port_of_own hown)

/-- A coport that nobody has touched is closed at once. -/
theorem close_init (type : CoportType) :
    ∃ port, Ipcd.closePort (AnyPort.init type) = some (port, .call .closed) := by
  cases type <;> exact ⟨_, rfl⟩

/-- A cocall of a thread. -/
theorem NamedInv.openerStep (h : NamedInv l s) (ho : s.openers[k]? = some o) {ret : Option Nat}
    {pc : OpenerPc} (hstep : s.openerStep l o ret = some (s', pc)) :
    NamedInv l { s' with openers := s'.openers.set k { o with pc := pc } } := by
  unfold NamedPorts.openerStep at hstep
  split at hstep
  next =>
    cases hstep
    exact h.exit ho
  next =>
    split at hstep
    next =>
      cases hstep
      exact h.setPc ho _ (fun j hj => by cases hj) (fun j hj => by cases hj)
        fun j obj hj => by cases hj
    next s₁ i hopen =>
      cases hstep
      obtain ⟨h', hopeners, hnsd, hi, hlt, hport⟩ := h.openPort hopen
      have hothers : ∀ (k' : Nat) o', s.openers[k']? = some o' → o'.type = o.type →
          o'.port ≠ some i := by
        intro k' o' ho' htype hj
        have hfits := h.fits k' o' i ho' hj
        rw [htype, hi] at hfits
        exact Nat.lt_irrefl _ hfits
      have ho₁ : s'.openers[k]? = some o := by rwa [hopeners]
      refine h'.setPc ho₁ _ (fun j hj => ?_) (fun j hj => ?_) fun j obj hj => by cases hj
      · cases hj
        refine ⟨(List.getElem?_eq_some_iff.mp hport).1, fun k' o' ho' _ htype => ?_⟩
        rw [hopeners] at ho'
        exact hothers k' o' ho' htype
      · cases hj
        refine ⟨?_, _, hport, by simp only [OwnState, reduceCtorEq, if_false]⟩
        rw [hnsd]
        exact h.unopened o.type i hlt (Nat.le_of_eq hi.symm)
  next _ i hpc =>
    have hi : o.port = some i := by simp only [Opener.port, hpc]
    split at hstep
    · cases hstep
      exact h.exit ho
    · split at hstep
      · cases hstep
        exact h.refused ho hpc
      · obtain ⟨⟨t', reply⟩, hr, hstep⟩ := Option.bind_eq_some_iff.mp hstep
        have hexit := h.insert ho hi hr
        dsimp only at hstep
        split at hstep
        · cases hstep
          exact hexit
        · obtain ⟨error, rfl, rfl⟩ | ⟨obj, j, rfl, htarget, hnamed⟩ := insert_reply hr
          · cases hstep
            exact h.refused ho hpc
          · simp only [htarget, reduceCtorEq, if_false] at hstep
            cases hstep
            have hk : (s.openers.set k { o with pc := .exited })[k]? =
                some { o with pc := .exited } :=
              List.getElem?_set_self (List.getElem?_eq_some_iff.mp ho).1
            have hset := hexit.setPc hk (.returned i obj) (fun x hx => ?_)
              (fun x hx => by cases hx) fun x obj' hx => ?_
            · simpa only [List.set_set] using hset
            · cases hx
              refine ⟨h.fits k o i ho hi, fun k' o' ho' hne => ?_⟩
              obtain ⟨rfl, -⟩ | ⟨-, hold⟩ := getElem?_set_cases ho'
              · exact absurd rfl hne
              · exact h.others ho hi k' o' hold hne
            · cases hx
              exact ⟨j, htarget, hnamed⟩
  next =>
    cases hstep
    exact h.exit ho
  next i value hpc =>
    have hi : o.port = some i := by simp only [Opener.port, hpc]
    have hown : o.ownPort = some i := by simp only [Opener.ownPort, hpc]
    obtain ⟨port, hport, hstate⟩ := h.own k o i ho hown
    have hinit : port = AnyPort.init o.type := by
      simpa only [OwnState, hpc, reduceCtorEq, if_false] using hstate
    obtain ⟨closed, hclosed⟩ := close_init o.type
    simp only [hport, hinit, hclosed, Option.bind_eq_bind, Option.bind_some] at hstep
    cases hstep
    have hexit := (h.exit ho).setPort o.type i closed
      fun o' hmem htype hown' => by
        obtain ⟨k', hk'⟩ := List.mem_iff_getElem?.mp hmem
        obtain ⟨rfl, rfl⟩ | ⟨hne, hold⟩ := getElem?_set_cases hk'
        · cases hown'
        · exact h.others ho hi k' o' hold hne htype (Opener.port_of_own hown')
    have hk : (s.openers.set k { o with pc := .exited })[k]? = some { o with pc := .exited } :=
      List.getElem?_set_self (List.getElem?_eq_some_iff.mp ho).1
    have hlt : i < (s.ports o.type).length := (List.getElem?_eq_some_iff.mp hport).1
    have hself : (s.setPort o.type i closed).ports o.type = (s.ports o.type).set i closed :=
      Function.update_self ..
    have hset := hexit.setPc hk (.failed (some i)) (fun x hx => ?_) (fun x hx => ?_)
      fun x obj hx => by cases hx
    · simpa only [NamedPorts.setPort, List.set_set] using hset
    · cases hx
      refine ⟨?_, fun k' o' ho' hne => ?_⟩
      · show i < ((s.setPort o.type i closed).ports o.type).length
        rw [hself, List.length_set]
        exact hlt
      · obtain ⟨rfl, -⟩ | ⟨-, hold⟩ := getElem?_set_cases ho'
        · exact absurd rfl hne
        · exact h.others ho hi k' o' hold hne
    · cases hx
      refine ⟨h.unnamed k o i ho hown, closed, ?_, ?_⟩
      · show ((s.setPort o.type i closed).ports o.type)[i]? = some closed
        rw [hself, List.getElem?_set_self hlt]
      · simpa only [OwnState, if_true] using hclosed
  next => cases hstep

/-- The step lemma. -/
theorem namedInv_step {a : NamedAct} (h : NamedInv l s) (hok : NamedOk l s a)
    (hstep : namedStep l s a = some s') : NamedInv l s' := by
  cases a with
  | begin name type ns =>
    cases hstep
    exact h.begin name type ns
  | advance k ret =>
    obtain ⟨o, ho, hstep⟩ := Option.bind_eq_some_iff.mp hstep
    obtain ⟨⟨s₁, pc⟩, hopener, hstep⟩ := Option.bind_eq_some_iff.mp hstep
    cases hstep
    exact h.openerStep ho hopener
  | exit k =>
    obtain ⟨o, ho, hstep⟩ := Option.bind_eq_some_iff.mp hstep
    cases hstep
    exact h.exit ho
  | request r =>
    obtain ⟨tables, hr, rfl⟩ := Option.map_eq_some_iff.mp hstep
    obtain ⟨⟨t, reply⟩, hhandle, rfl⟩ := Option.map_eq_some_iff.mp hr
    exact h.request hok (handle_effect hhandle)
  | coopen type =>
    obtain ⟨⟨s₁, i⟩, hopen, rfl⟩ := Option.map_eq_some_iff.mp hstep
    exact (h.openPort hopen).1
  | portOp type i op =>
    obtain ⟨port, -, hstep⟩ := Option.bind_eq_some_iff.mp hstep
    obtain ⟨port', -, hstep⟩ := Option.bind_eq_some_iff.mp hstep
    cases hstep
    exact h.setPort type i port' hok

end

section
variable {l : PortLayout} {maxNamespaces maxNsobjects : Nat}
  {handles : List UInt8 → Option { handle : NsCap // handle.tag = true }} {s : NamedPorts}

/-- No handle that nsd begins with leads to where coports will be. -/
def HandlesApart (l : PortLayout)
    (handles : List UInt8 → Option { handle : NsCap // handle.tag = true }) : Prop :=
  ∀ name h type i, handles name = some h → i < maxCoports →
    h.1.target ≠ some (.client (l.entry type i))

theorem namedInv_init (h : HandlesApart l handles) :
    NamedInv l (initNamedPorts (Nsd.initTables maxNamespaces maxNsobjects handles)) where
  count _ := Nat.zero_le _
  unopened type i hi _ object hmem htarget := by
    obtain ⟨name, -, rfl⟩ := List.mem_map.mp hmem
    split at htarget
    next => cases htarget
    next handle hhandle => exact h name handle type i hhandle hi htarget
  fits _ _ _ ho _ := by cases ho
  apart _ _ _ _ _ ho _ _ _ _ := by cases ho
  unnamed _ _ _ ho _ := by cases ho
  own _ _ _ ho _ := by cases ho
  named _ _ _ _ ho _ := by cases ho

/-- What `open_named_coport` comes to, while others use what they have. With an object, this is the
one of its name, and leads to its own coport until it is deleted. Without one, its coport is closed,
and no object leads to it. No two calls have the same coport, and the close always comes off. -/
theorem named_coports (hhandles : HandlesApart l handles)
    (h : Reach (namedStep l) (NamedOk l)
      (initNamedPorts (Nsd.initTables maxNamespaces maxNsobjects handles)) s)
    (k : Nat) (o : Opener) (ho : s.openers[k]? = some o) :
    (∀ i obj, o.pc = .returned i obj →
      ∃ j, obj.target = some (.nsobj j) ∧ NamedAs s.nsd j o.name (l.handle o.type i)) ∧
    (∀ i, o.pc = .failed (some i) → Unnamed l s.nsd o.type i ∧
      ∃ port, (s.ports o.type)[i]? = some port ∧
        Ipcd.closePort (AnyPort.init o.type) = some (port, .call .closed)) ∧
    (∀ i value, o.pc = .coclose i → Unnamed l s.nsd o.type i ∧
      ∃ s', s.openerStep l o (some value) = some (s', .failed (some i))) ∧
    ∀ (k' : Nat) o' i, s.openers[k']? = some o' → k' ≠ k → o'.type = o.type →
      o.port = some i → o'.port ≠ some i := by
  have hinv : NamedInv l s :=
    h.invariant (namedInv_init hhandles) fun _ _ _ _ ht hok hstep => namedInv_step ht hok hstep
  refine ⟨fun i obj hpc => hinv.named k o i obj ho hpc, fun i hpc => ?_, fun i value hpc => ?_,
    fun k' o' i ho' hne htype hi => hinv.others ho hi k' o' ho' hne htype⟩
  · have hown : o.ownPort = some i := by simp only [Opener.ownPort, hpc]
    obtain ⟨port, hport, hstate⟩ := hinv.own k o i ho hown
    refine ⟨hinv.unnamed k o i ho hown, port, hport, ?_⟩
    simpa only [OwnState, hpc, if_true] using hstate
  · have hown : o.ownPort = some i := by simp only [Opener.ownPort, hpc]
    obtain ⟨port, hport, hstate⟩ := hinv.own k o i ho hown
    have hinit : port = AnyPort.init o.type := by
      simpa only [OwnState, hpc, reduceCtorEq, if_false] using hstate
    obtain ⟨closed, hclosed⟩ := close_init o.type
    refine ⟨hinv.unnamed k o i ho hown, s.setPort o.type i closed, ?_⟩
    simp only [NamedPorts.openerStep, hpc, hport, hinit, hclosed, Option.bind_eq_bind,
      Option.bind_some]

end

/-! ### Two threads with one name -/

/-- `NamedOk`, as a test, where nothing is stored. -/
def checkNamed (_ : NamedPorts) : NamedAct → Bool
  | .request r     => r.stored.isEmpty
  | .portOp _ _ _  => false
  | _              => true

theorem namedOk_of_check {l : PortLayout} (s : NamedPorts) (a : NamedAct)
    (h : checkNamed s a = true) : NamedOk l s a := by
  cases a with
  | request r =>
    intro c hc
    rw [checkNamed, List.isEmpty_iff] at h
    rw [h] at hc
    cases hc
  | portOp type i op => cases h
  | begin | advance | exit | coopen => trivial

/-- Tables that are a megabyte apart. -/
theorem tables_apart (type type' : CoportType) (i i' : Nat) (hi : i < maxCoports)
    (hi' : i' < maxCoports)
    (h : 0x100000 * type.toInt.toNat + i * sizeofCoportTblEntry =
      0x100000 * type'.toInt.toNat + i' * sizeofCoportTblEntry) : type = type' ∧ i = i' := by
  have hsize : sizeofCoportTblEntry = 80 := rfl
  have hmax : maxCoports = 256 := rfl
  cases type <;> cases type' <;>
    simp only [hsize, hmax, CoportType.toInt, reduceCtorEq, true_and, false_and] at * <;>
    omega

def portLayout : PortLayout where
  base type := 0x100000 * type.toInt.toNat
  apart := tables_apart

/-- Both threads have opened a coport before nsd gets the first request. -/
def openTwo : List NamedAct :=
  [.begin (asciiBytes ['a']) .cocarrier rootCap, .begin (asciiBytes ['a']) .cocarrier rootCap,
    .advance 0 (some 1), .advance 1 (some 1), .advance 0 (some 1), .advance 1 (some 1),
    .request (.coselect coportA), .advance 1 (some 1)]

theorem named_coports_two :
    ∃ s o, Reach (namedStep portLayout) (NamedOk portLayout) (initNamedPorts freshTables) s ∧
      s.openers[1]? = some o ∧ o.pc = .failed (some 1) ∧
      Unnamed portLayout s.nsd .cocarrier 1 := by
  obtain ⟨s, hs⟩ : ∃ s, runFrom (namedStep portLayout) (initNamedPorts freshTables) openTwo =
      some s := Option.isSome_iff_exists.mp (by decide)
  have hreach : Reach (namedStep portLayout) (NamedOk portLayout) (initNamedPorts freshTables) s :=
    reach_of_checkAll namedOk_of_check _ _ _ (by decide) hs
  have hpc : (s.openers[1]?).map (fun o : Opener => (o.pc, o.type)) =
      some (OpenerPc.failed (some 1), CoportType.cocarrier) :=
    eq_of_map_runFrom (fun s => (s.openers[1]?).map fun o : Opener => (o.pc, o.type)) hs
      (by decide)
  obtain ⟨o, ho, heq⟩ := Option.map_eq_some_iff.mp hpc
  have hfailed : o.pc = .failed (some 1) := congrArg Prod.fst heq
  have htype : o.type = .cocarrier := congrArg Prod.snd heq
  have hnamed := named_coports (fun _ _ _ _ h => by cases h) hreach 1 o ho
  exact ⟨s, o, hreach, ho, hfailed, htype ▸ (hnamed.2.1 1 hfailed).1⟩

end Comsg.Proofs.Libcomsg
