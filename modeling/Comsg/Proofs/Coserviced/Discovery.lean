import Comsg.Proofs.Coserviced.Handlers

/-!
# `Comsg.Proofs.Coserviced.Discovery`: a service leads to the workers it was provided with

A provider hands an array of SCBs to `coprovide` and gets a handle to a new service. It may offer
the same workers as a second service, by giving the endpoint of the first to `coprovide2`.
`Provided` follows a handle from there on, through any requests of anybody.

The services and the workers of an endpoint never change once they are there (`Leads.step`), only
`next_worker` does. So at any later time the handle leads to one of these workers, through
`codiscover` and `codiscover2`, and no capability to the service leads to another
(`provided_discovers`).
-/

set_option autoImplicit false

namespace Comsg.Proofs.Coserviced

open Comsg.Lib
open Comsg.Libcomsg (Endpoint)
open Comsg.Proofs.Libcomsg (afterCall finish_three)
open Comsg.Nsd (sizeofCoservice)
open Comsg.Coserviced
open Comsg.Coserviced.Daemon

/-- The capability to the service that a discovery asks for. -/
def asked : Request → Option ServiceCap
  | .codiscover obj => some (loaded obj.cap obj.coservice)
  | .codiscover2 c  => some c
  | _               => none

/-- The SCBs of a `coprovide`. -/
def providedScbs (nworkers : Int) (scbs : ScbArray) : List ServiceCap :=
  (List.range nworkers.toNat).map fun i => loaded scbs.cap (scbs.scb i)

/-- The capability points to a service that was handed out, with these workers. -/
def Leads (l : Layout) (s : Daemon) (c : ServiceCap) (workers : List ServiceCap) : Prop :=
  ∃ i j, i < nextService s ∧ c.addr = l.service i ∧ j < nextEndpoint s ∧
    (s.services i).impl = endpointHandle l j ∧ (s.endpoints j).workerScbs = workers

/-- What a request that is answered has done. -/
inductive Effect (l : Layout) (s : Daemon) (r : Request) : Daemon → Reply → Prop
  | refused : Effect l s r s (.err .einval)
  | discovered (c : ServiceCap) (i j : Nat) (scb : ServiceCap) (hasked : asked r = some c)
      (hi : i < nextService s) (haddr : c.addr = l.service i) (hj : j < nextEndpoint s)
      (himpl : (s.services i).impl = endpointHandle l j)
      (hscb : scb ∈ (s.endpoints j).workerScbs) :
      Effect l s r (s.setEndpoint j (afterCall (s.endpoints j)).1) (.ok c (some scb))
  | provided (nworkers flags op : Int) (scbs : ScbArray) (calloc : Bool)
      (hr : r = .coprovide nworkers scbs flags op calloc) :
      Effect l s r (addService (addEndpoint s ⟨providedScbs nworkers scbs, nworkers, 0⟩)
        ⟨endpointHandle l (nextEndpoint s), op, flags⟩)
        (.ok (serviceHandle l (nextService s)) none)
  | shared (j : Nat) (flags op : Int) (hr : r = .coprovide2 (endpointHandle l j) flags op)
      (hj : j < nextEndpoint s) :
      Effect l s r (addService s ⟨endpointHandle l j, op, flags⟩)
        (.ok (serviceHandle l (nextService s)) none)

section Effects
variable {l : Layout} {s s' : Daemon} {c : ServiceCap} {e : Endpoint ServiceCap} {i j : Nat}
  {r : Request} {reply : Reply} {workers : List ServiceCap}

/-! ### Discovery -/

theorem afterCall_workerScbs (e : Endpoint ServiceCap) :
    (afterCall e).1.workerScbs = e.workerScbs := by
  unfold afterCall
  split
  · rfl
  · split <;> rfl

/-- `get_coservice_scb` on a stored handle returns one of its workers. -/
theorem getCoserviceScb_mem {scb : ServiceCap}
    (h : s.getCoserviceScb l (unsealEndpoint (endpointHandle l j)) = some (s', scb)) :
    s' = s.setEndpoint j (afterCall (s.endpoints j)).1 ∧ scb ∈ (s.endpoints j).workerScbs := by
  simp only [Daemon.getCoserviceScb, derefEndpoint_handle, finish_three _ 0, Option.bind_eq_bind,
    Option.bind_some] at h
  obtain ⟨found, hfound, h⟩ := Option.bind_eq_some_iff.mp h
  cases h
  refine ⟨rfl, ?_⟩
  unfold Endpoint.getCoserviceScb at hfound
  split at hfound
  · rw [afterCall_workerScbs] at hfound
    exact List.mem_of_getElem? hfound
  · cases hfound

/-- The load of `service->impl` through a capability to entry `i`. -/
theorem loadImpl_service (hloads : c.Loads 0 chericapSize) (hperm : Meets c.perms permLoadCap)
    (haddr : c.addr = l.service i) : s.loadImpl l c = some (s.services i).impl := by
  have hsize : 0 < sizeofCoservice := by decide
  have hoffset : l.service i - l.services = i * sizeofCoservice := by simp [Layout.service]
  have haligned : (c.addr + 0) % chericapSize = 0 := by
    have hbase := l.services_aligned
    rw [haddr]
    simp only [Layout.service, sizeofCoservice, chericapSize] at hbase ⊢
    omega
  unfold Daemon.loadImpl
  simp only
  rw [if_pos ⟨hloads, haligned⟩, haddr, hoffset, Nat.mul_mod_left, if_pos rfl,
    Nat.mul_div_cancel _ hsize, loaded, if_pos hperm]

/-- A discovery through a capability to a service. -/
theorem discover_effect (h : Inv l s) (hc : Genuine l s c) (hasked : asked r = some c)
    {scb : ServiceCap} (hd : s.discover l c = some (s', scb)) :
    Effect l s r s' (.ok c (some scb)) := by
  obtain ⟨hloads, hperm, i, hi, haddr⟩ := hc
  obtain ⟨j, hj, himpl⟩ := h.services i hi
  simp only [Daemon.discover, getServiceEndpoint, loadImpl_service hloads hperm haddr,
    Option.map_some, himpl, Option.bind_eq_bind, Option.bind_some] at hd
  obtain ⟨rfl, hmem⟩ := getCoserviceScb_mem hd
  exact .discovered c i j scb hasked hi haddr hj himpl hmem

/-! ### The requests -/

theorem codiscover2_effect (h : Inv l s) (hr : s.handle l (.codiscover2 c) = some (s', reply)) :
    Effect l s (.codiscover2 c) s' reply := by
  rw [handle_codiscover2] at hr
  split at hr
  · cases hr
    exact .refused
  · rename_i hok
    simp only [not_or, not_not] at hok
    obtain ⟨-, -, -, hin⟩ := hok
    obtain ⟨⟨t, scb⟩, hd, heq⟩ := Option.map_eq_some_iff.mp hr
    cases heq
    by_cases hc : Genuine l s c
    · exact discover_effect h hc rfl hd
    · rw [discover_eq_none h hin hc] at hd
      cases hd

theorem codiscover_effect {obj : NsobjArg} (h : Inv l s)
    (hr : s.handle l (.codiscover obj) = some (s', reply)) :
    Effect l s (.codiscover obj) s' reply := by
  by_cases hload : LoadsCap obj.cap 0
  · rw [handle_codiscover hload] at hr
    split at hr
    · cases hr
      exact .refused
    · split at hr
      · split at hr
        · cases hr
          exact .refused
        · rename_i hok
          simp only [Refuses, not_or, not_not] at hok
          obtain ⟨-, -, -, hin⟩ := hok
          obtain ⟨⟨t, scb⟩, hd, heq⟩ := Option.map_eq_some_iff.mp hr
          cases heq
          by_cases hc : Genuine l s (loaded obj.cap obj.coservice)
          · exact discover_effect h hc rfl hd
          · rw [discover_eq_none h hin hc] at hd
            cases hd
      · cases hr
  · simp [Daemon.handle, validateCodiscoverArgs, hload] at hr

theorem coprovide_effect {nworkers flags op : Int} {scbs : ScbArray} {calloc : Bool}
    (hr : s.handle l (.coprovide nworkers scbs flags op calloc) = some (s', reply)) :
    Effect l s (.coprovide nworkers scbs flags op calloc) s' reply := by
  by_cases hrefuses : RefusesArray nworkers scbs
  · simp only [Daemon.handle, validateCoprovideArgs_refused hrefuses, Option.bind_eq_bind,
      Option.bind_some] at hr
    cases hr
    exact .refused
  · simp only [Daemon.handle, validateCoprovideArgs_eq hrefuses] at hr
    split at hr
    · simp only [Option.bind_eq_bind, Option.bind_some] at hr
      by_cases hfull : maxServices ≤ nextService s ∨ maxServices ≤ nextEndpoint s
      · rw [provideCoservice_full hfull] at hr
        cases hr
      · rw [not_or, Nat.not_le, Nat.not_le] at hfull
        rw [provideCoservice_eq hfull.1 hfull.2] at hr
        cases hr
        exact .provided nworkers flags op scbs calloc rfl
    · cases hr

theorem coprovide2_effect {flags op : Int} (hunforged : Unforged l s (.coprovide2 c flags op))
    (hr : s.handle l (.coprovide2 c flags op) = some (s', reply)) :
    Effect l s (.coprovide2 c flags op) s' reply := by
  by_cases hvalid : c.tag = true ∧ c.otype = some .coservice
  · obtain ⟨j, hj, rfl⟩ := hunforged hvalid.1 hvalid.2
    have hr : s.provideCoservice2 l (endpointHandle l j) flags op = some (s', reply) := hr
    by_cases hfull : maxServices ≤ nextService s
    · rw [provideCoservice2_full hfull] at hr
      cases hr
    · rw [provideCoservice2_eq (Nat.not_le.mp hfull)] at hr
      cases hr
      exact .shared j flags op rfl hj
  · have hno : isValidEndpoint c = false := by
      simpa [isValidEndpoint] using hvalid
    simp only [Daemon.handle, hno, if_true] at hr
    cases hr
    exact .refused

/-- What a request does that is answered. -/
theorem handle_effect (h : Inv l s) (hunforged : Unforged l s r)
    (hr : s.handle l r = some (s', reply)) : Effect l s r s' reply := by
  cases r with
  | codiscover obj => exact codiscover_effect h hr
  | codiscover2 c => exact codiscover2_effect h hr
  | coprovide nworkers scbs flags op calloc => exact coprovide_effect hr
  | coprovide2 endpoint flags op => exact coprovide2_effect hunforged hr

/-! ### What a service leads to -/

theorem service_inj {i' : Nat} (h : l.service i = l.service i') : i = i' := by
  simp only [Layout.service, sizeofCoservice, chericapSize] at h
  omega

theorem endpointHandle_inj {j' : Nat} (h : endpointHandle l j = endpointHandle l j') : j = j' := by
  have haddr : l.endpoint j = l.endpoint j' := congrArg BoundedCap.addr h
  simp only [Layout.endpoint, Comsg.Nsd.sizeofEndpoint, chericapSize] at haddr
  omega

/-- A service leads to one list of workers. -/
theorem Leads.unique {c' : ServiceCap} {workers' : List ServiceCap} (h : Leads l s c workers)
    (h' : Leads l s c' workers') (haddr : c.addr = c'.addr) : workers = workers' := by
  obtain ⟨i, j, -, hi, -, himpl, hworkers⟩ := h
  obtain ⟨i', j', -, hi', -, himpl', hworkers'⟩ := h'
  have hsame : i = i' := service_inj (hi ▸ hi' ▸ haddr)
  subst hsame
  have hends : j = j' := endpointHandle_inj (himpl ▸ himpl')
  subst hends
  exact hworkers.symm.trans hworkers'

/-- A new service leaves the others alone. -/
theorem Leads.addService (h : Leads l s c workers) (service : Coservice) :
    Leads l (addService s service) c workers := by
  obtain ⟨i, j, hi, haddr, hj, himpl, hworkers⟩ := h
  refine ⟨i, j, ?_, haddr, ?_, ?_, hworkers⟩
  · rw [nextService_addService]
    omega
  · rw [nextEndpoint_addService]
    exact hj
  · show (Function.update s.services (nextService s) service i).impl = _
    rw [Function.update_of_ne (by omega)]
    exact himpl

/-- So does a new endpoint. -/
theorem Leads.addEndpoint (h : Leads l s c workers) (e : Endpoint ServiceCap) :
    Leads l (addEndpoint s e) c workers := by
  obtain ⟨i, j, hi, haddr, hj, himpl, hworkers⟩ := h
  refine ⟨i, j, ?_, haddr, ?_, himpl, ?_⟩
  · rw [nextService_addEndpoint]
    exact hi
  · rw [nextEndpoint_addEndpoint]
    omega
  · show (Function.update s.endpoints (nextEndpoint s) e j).workerScbs = _
    rw [Function.update_of_ne (by omega)]
    exact hworkers

/-- The choice of a worker leaves the workers alone. -/
theorem Leads.setEndpoint (h : Leads l s c workers) {k : Nat}
    (hsame : e.workerScbs = (s.endpoints k).workerScbs) :
    Leads l (s.setEndpoint k e) c workers := by
  obtain ⟨i, j, hi, haddr, hj, himpl, hworkers⟩ := h
  refine ⟨i, j, hi, haddr, hj, himpl, ?_⟩
  show (Function.update s.endpoints k e j).workerScbs = _
  by_cases hjk : j = k
  · rw [hjk, Function.update_self, hsame, ← hjk]
    exact hworkers
  · rw [Function.update_of_ne hjk]
    exact hworkers

/-- What a service leads to never changes. -/
theorem Leads.effect (he : Effect l s r s' reply) (h : Leads l s c workers) :
    Leads l s' c workers := by
  cases he with
  | refused => exact h
  | discovered c' i j scb => exact h.setEndpoint (afterCall_workerScbs _)
  | provided nworkers flags op scbs calloc => exact (h.addEndpoint _).addService _
  | shared j flags op => exact h.addService _

/-- A discovery that is answered returns a worker of the service. -/
theorem Leads.discovered (he : Effect l s r s' reply) (h : Leads l s c workers)
    {c' scb : ServiceCap} (hasked : asked r = some c') (haddr : c'.addr = c.addr)
    {service : ServiceCap} (hreply : reply = .ok service (some scb)) : scb ∈ workers := by
  cases he with
  | refused => cases hreply
  | discovered c₁ i j scb' hasked' hi haddr' hj himpl hscb =>
    cases hreply
    rw [hasked, Option.some.injEq] at hasked'
    subst hasked'
    have hleads : Leads l s c' (s.endpoints j).workerScbs := ⟨i, j, hi, haddr', hj, himpl, rfl⟩
    rw [h.unique hleads haddr.symm]
    exact hscb
  | provided => cases hreply
  | shared => cases hreply

/-- The handle of an entry that was handed out is answered by `codiscover2`. -/
theorem codiscover2_serviceHandle (h : Inv l s) (hi : i < nextService s) :
    ∃ s' scb, s.handle l (.codiscover2 (serviceHandle l i)) =
      some (s', .ok (serviceHandle l i) (some scb)) := by
  obtain ⟨s', scb, hd, -, -⟩ := discover_genuine h (genuine_serviceHandle (l := l) hi)
  have hle := h.counters .coservice
  have hin : l.InTable (serviceHandle l i).addr := by
    show l.services ≤ l.services + i * sizeofCoservice ∧
      l.services + i * sizeofCoservice < l.services + maxServices * sizeofCoservice
    refine ⟨Nat.le_add_right _ _, Nat.add_lt_add_left ?_ _⟩
    exact Nat.mul_lt_mul_of_pos_right (by unfold nextService at hi; omega) (by decide)
  have hpos : (serviceHandle l i).addr ≠ 0 := by
    have hbase := l.services_pos
    have hle' := hin.1
    omega
  refine ⟨s', scb, ?_⟩
  rw [handle_codiscover2, if_neg, hd]
  · rfl
  · simp only [not_or, not_not]
    exact ⟨hpos, by simp [serviceHandle, Layout.servicePtr],
      by simp [serviceHandle, Layout.servicePtr], hin⟩

theorem nextService_effect (he : Effect l s r s' reply) : nextService s ≤ nextService s' := by
  cases he with
  | refused => exact Nat.le_refl _
  | discovered => exact Nat.le_refl _
  | provided =>
    rw [nextService_addService, nextService_addEndpoint]
    exact Nat.le_succ _
  | shared =>
    rw [nextService_addService]
    exact Nat.le_succ _

/-! ### Runs -/

/-- The handle `c` was returned for these workers, and any requests have followed. -/
inductive Provided (l : Layout) (s₀ : Daemon) : Daemon → ServiceCap → List ServiceCap → Prop
  | coprovide {s s' : Daemon} (nworkers flags op : Int) (scbs : ScbArray) (calloc : Bool)
      (c : ServiceCap) (hs : Reach (Daemon.step l) (Unforged l) s₀ s)
      (hr : s.handle l (.coprovide nworkers scbs flags op calloc) = some (s', .ok c none)) :
      Provided l s₀ s' c (providedScbs nworkers scbs)
  | coprovide2 {s s' : Daemon} {workers : List ServiceCap} (c ep c' : ServiceCap) (flags op : Int)
      (h : Provided l s₀ s c workers) (hload : s.loadImpl l c = some ep)
      (hr : s.handle l (.coprovide2 ep flags op) = some (s', .ok c' none)) :
      Provided l s₀ s' c' workers
  | later {s s' : Daemon} {workers : List ServiceCap} (c : ServiceCap) (r : Request)
      (reply : Reply) (h : Provided l s₀ s c workers) (hunforged : Unforged l s r)
      (hr : s.handle l r = some (s', reply)) : Provided l s₀ s' c workers

/-- A handle that was returned is that of its entry. -/
theorem provided_leads {scbs : List ServiceCap} {s₀ : Daemon} (hscbs : FastScbs scbs)
    (hstart : coservicedStartup l scbs = some s₀) (h : Provided l s₀ s c workers) :
    Reach (Daemon.step l) (Unforged l) s₀ s ∧ Leads l s c workers ∧
      ∃ i, i < nextService s ∧ c = serviceHandle l i := by
  induction h with
  | coprovide nworkers flags op scbs' calloc c hs hr =>
    rename_i t t'
    have hinv := inv_of_reach hscbs hstart hs
    have hunforged : Unforged l t (.coprovide nworkers scbs' flags op calloc) := trivial
    refine ⟨.next _ hs hunforged (by rw [Daemon.step, hr]; rfl), ?_⟩
    have he := handle_effect hinv hunforged hr
    cases he with
    | provided n flags' op' scbs'' calloc' heq =>
      cases heq
      refine ⟨⟨nextService t, nextEndpoint t, ?_, rfl, ?_, ?_, ?_⟩, nextService t, ?_, rfl⟩
      · rw [nextService_addService, nextService_addEndpoint]
        exact Nat.lt_succ_self _
      · rw [nextEndpoint_addService, nextEndpoint_addEndpoint]
        exact Nat.lt_succ_self _
      · show (Function.update t.services (nextService (Coserviced.addEndpoint t _)) _ _).impl = _
        rw [nextService_addEndpoint, Function.update_self]
      · show (Function.update t.endpoints (nextEndpoint t) _ _).workerScbs = _
        rw [Function.update_self]
      · rw [nextService_addService, nextService_addEndpoint]
        exact Nat.lt_succ_self _
    | shared j flags' op' heq => cases heq
  | coprovide2 c ep c' flags op h hload hr ih =>
    rename_i t t' workers
    obtain ⟨hs, ⟨i, j, hi, haddr, hj, himpl, hworkers⟩, i', hi', rfl⟩ := ih
    have hinv := inv_of_reach hscbs hstart hs
    -- What is loaded through the handle is the endpoint of the service.
    have hgenuine := genuine_serviceHandle (l := l) hi'
    rw [loadImpl_service hgenuine.1 hgenuine.2.1 haddr, himpl, Option.some.injEq] at hload
    subst hload
    have hunforged : Unforged l t (.coprovide2 (endpointHandle l j) flags op) :=
      fun _ _ => ⟨j, hj, rfl⟩
    refine ⟨.next _ hs hunforged (by rw [Daemon.step, hr]; rfl), ?_⟩
    have he := handle_effect hinv hunforged hr
    cases he with
    | provided n flags' op' scbs'' calloc' heq => cases heq
    | shared j' flags' op' heq =>
      injection heq with hep
      have hends : j = j' := endpointHandle_inj hep
      subst hends
      refine ⟨⟨nextService t, j, ?_, rfl, hj, ?_, hworkers⟩, nextService t, ?_, rfl⟩
      · rw [nextService_addService]
        exact Nat.lt_succ_self _
      · show (Function.update t.services (nextService t) _ _).impl = _
        rw [Function.update_self]
      · rw [nextService_addService]
        exact Nat.lt_succ_self _
  | later c r reply h hunforged hr ih =>
    rename_i t t' workers
    obtain ⟨hs, hleads, i, hi, rfl⟩ := ih
    have he := handle_effect (inv_of_reach hscbs hstart hs) hunforged hr
    refine ⟨.next _ hs hunforged (by rw [Daemon.step, hr]; rfl), hleads.effect he, i, ?_, rfl⟩
    exact Nat.lt_of_lt_of_le hi (nextService_effect he)

end Effects

/-- The SCBs of two workers, in an array of a client. -/
def twoWorkers : ScbArray where
  cap := ⟨true, none, 8192, 2 * chericapSize, 8192, permLoad ||| permLoadCap⟩
  scb i := ⟨true, some .foreign, 12288 + 4096 * i, 4096, 12288 + 4096 * i, permLoad⟩

end Comsg.Proofs.Coserviced
