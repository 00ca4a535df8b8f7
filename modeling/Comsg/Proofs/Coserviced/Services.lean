import Comsg.Coserviced.Handlers
import Comsg.Proofs.Libcomsg.Coservice

/-!
# `Comsg.Proofs.Coserviced.Services`: the entries of coserviced's tables

`Inv` is what the requests keep: the services that were handed out have a handle to a working
endpoint, and the others have none. So a capability to an entry that was handed out leads to an SCB
(`discover_genuine`), and any other capability into the table faults (`discover_eq_none`).
`provideCoservice_eq` and `provideCoservice2_eq` say what the tables are after a new service, and
`provideCoservice_full` and `provideCoservice2_full` that there is none when a table is full: the
handlers store through the `NULL` that the allocator returns.
-/

set_option autoImplicit false

namespace Comsg.Proofs.Coserviced

open Comsg.Lib
open Comsg.Libcomsg (Endpoint CocallNum coserviceMaxWorkers intMax int32Succ)
open Comsg.Proofs.Libcomsg (afterCall finish_three)
open Comsg.Nsd (sizeofCoservice sizeofEndpoint sizeofNsobject coserviceHandlePerms
  coserviceEndpointHandlePerms)
open Comsg.Coserviced
open Comsg.Coserviced.Daemon

/-- The handle that a client gets for entry `i`, and the one that is stored for endpoint `j`. -/
def serviceHandle (l : Layout) (i : Nat) : ServiceCap :=
  { l.servicePtr i with perms := dataPerms &&& coserviceHandlePerms }
def endpointHandle (l : Layout) (j : Nat) : ServiceCap :=
  { l.endpointPtr j with
    perms := dataPerms &&& coserviceEndpointHandlePerms
    otype := some .coservice }

/-- An endpoint with workers. -/
structure Working (e : Endpoint ServiceCap) : Prop where
  nworkers_pos : 1 ≤ e.nworkers
  nworkers_le : e.nworkers ≤ intMax
  length_eq : e.workerScbs.length = e.nworkers
  next_nonneg : 0 ≤ e.nextWorker

/-- The numbers of entries that were handed out. -/
abbrev nextService (s : Daemon) : Nat := (s.counters .coservice).next
abbrev nextEndpoint (s : Daemon) : Nat := (s.counters .endpoint).next

/-- The invariant of the requests. -/
structure Inv (l : Layout) (s : Daemon) : Prop where
  counters : ∀ a, (s.counters a).next ≤ maxServices
  services : ∀ i, i < nextService s →
    ∃ j, j < nextEndpoint s ∧ (s.services i).impl = endpointHandle l j
  fresh : ∀ i, nextService s ≤ i → (s.services i).impl = .null
  endpoints : ∀ j, j < nextEndpoint s → Working (s.endpoints j)

section Facts
variable {l : Layout} {s s' : Daemon} {c : ServiceCap} {e : Endpoint ServiceCap} {i j : Nat}

/-! ### Endpoints -/

theorem Working.afterCall (h : Working e) :
    Working (afterCall e).1 ∧
      ∃ scb, (Libcomsg.afterCall e).1.getCoserviceScb (Libcomsg.afterCall e).2 = some scb := by
  have hpos := h.nworkers_pos
  have hlen := h.length_eq
  have hnext := h.next_nonneg
  have hmax := h.nworkers_le
  -- The index is within the array.
  have hload {e' : Endpoint ServiceCap} {index : Int} (hscbs : e'.workerScbs = e.workerScbs)
      (hle : 0 ≤ index) (hlt : index < e.nworkers) :
      ∃ scb, e'.getCoserviceScb index = some scb := by
    have hbound : index.toNat < e'.workerScbs.length := by
      rw [hscbs]
      omega
    refine ⟨e'.workerScbs.get ⟨_, hbound⟩, ?_⟩
    rw [Endpoint.getCoserviceScb, if_pos hle]
    exact List.getElem?_eq_getElem hbound
  -- The three ends of `get_scb_index`: one worker, a reset, or the next index.
  unfold Libcomsg.afterCall
  split
  · exact ⟨h, hload rfl (Int.le_refl 0) (by omega)⟩
  · split
    · exact ⟨⟨hpos, hmax, hlen, Int.le_refl 0⟩, hload rfl (Int.le_refl 0) (by omega)⟩
    · refine ⟨⟨hpos, hmax, hlen, ?_⟩, hload rfl hnext (by omega)⟩
      show 0 ≤ int32Succ e.nextWorker
      rw [int32Succ, if_neg (by omega)]
      omega

theorem derefEndpoint_handle (l : Layout) (j : Nat) :
    derefEndpoint l (unsealEndpoint (endpointHandle l j)) = some j := by
  have hperms : (unsealEndpoint (endpointHandle l j)).perms =
      dataPerms &&& coserviceEndpointHandlePerms := rfl
  have haddr : (unsealEndpoint (endpointHandle l j)).addr = l.endpoint j := rfl
  have hloads : (unsealEndpoint (endpointHandle l j)).Loads 0 (offsetNextWorker + sizeofInt) := by
    refine ⟨rfl, rfl, ?_, ?_, ?_⟩
    · rw [hperms]
      decide
    · exact Nat.le_refl _
    · show l.endpoint j + 0 + (offsetNextWorker + sizeofInt) ≤ l.endpoint j + sizeofEndpoint
      simp [offsetNextWorker, sizeofInt, sizeofEndpoint, chericapSize]
  have hoffset : l.endpoint j - l.endpoints = j * sizeofEndpoint := by
    simp [Layout.endpoint]
  have hsize : 0 < sizeofEndpoint := by decide
  unfold derefEndpoint
  simp only
  rw [if_pos, haddr, hoffset, Nat.mul_div_cancel _ hsize]
  refine ⟨hloads, ?_, ?_, ?_, ?_⟩
  · rw [hperms]
    decide
  · rw [hperms]
    decide
  · rw [haddr]
    exact Nat.le_add_right _ _
  · rw [haddr, hoffset, Nat.mul_mod_left]

theorem derefEndpoint_untagged (h : c.tag = false) : derefEndpoint l c = none := by
  simp [derefEndpoint, BoundedCap.Loads, h]

/-- `get_coservice_scb` on a stored handle. -/
theorem getCoserviceScb_handle (h : Working (s.endpoints j)) :
    ∃ e scb, Working e ∧ s.getCoserviceScb l (unsealEndpoint (endpointHandle l j)) =
      some (s.setEndpoint j e, scb) := by
  obtain ⟨hworking, scb, hscb⟩ := h.afterCall
  refine ⟨_, scb, hworking, ?_⟩
  simp [Daemon.getCoserviceScb, derefEndpoint_handle, finish_three _ 0, hscb]

theorem getCoserviceScb_untagged (h : c.tag = false) : s.getCoserviceScb l c = none := by
  simp [Daemon.getCoserviceScb, derefEndpoint_untagged h]

/-! ### Services -/

/-- The capability can be read, and it points to an entry that was handed out. -/
def Genuine (l : Layout) (s : Daemon) (c : ServiceCap) : Prop :=
  c.Loads 0 chericapSize ∧ Meets c.perms permLoadCap ∧
    ∃ i, i < nextService s ∧ c.addr = l.service i

theorem Inv.setEndpoint (h : Inv l s) (he : Working e) : Inv l (s.setEndpoint j e) where
  counters := h.counters
  services := h.services
  fresh := h.fresh
  endpoints := by
    intro k hk
    by_cases hkj : k = j
    · subst hkj
      show Working (Function.update s.endpoints k e k)
      rw [Function.update_self]
      exact he
    · show Working (Function.update s.endpoints j e k)
      rw [Function.update_of_ne hkj]
      exact h.endpoints k hk

theorem loadImpl_genuine (h : Genuine l s c) :
    ∃ i, i < nextService s ∧ s.loadImpl l c = some (s.services i).impl := by
  obtain ⟨hloads, hperm, i, hi, haddr⟩ := h
  have hsize : 0 < sizeofCoservice := by decide
  have hoffset : l.service i - l.services = i * sizeofCoservice := by simp [Layout.service]
  have haligned : (c.addr + 0) % chericapSize = 0 := by
    have hbase := l.services_aligned
    rw [haddr]
    simp only [Layout.service, sizeofCoservice, chericapSize] at hbase ⊢
    omega
  refine ⟨i, hi, ?_⟩
  unfold Daemon.loadImpl
  simp only
  rw [if_pos ⟨hloads, haligned⟩, haddr, hoffset, Nat.mul_mod_left, if_pos rfl,
    Nat.mul_div_cancel _ hsize, loaded, if_pos hperm]

/-- A capability to an entry that was handed out leads to an SCB. -/
theorem discover_genuine (h : Inv l s) (hc : Genuine l s c) :
    ∃ s' scb, s.discover l c = some (s', scb) ∧ Inv l s' ∧ s'.counters = s.counters := by
  obtain ⟨i, hi, hload⟩ := loadImpl_genuine hc
  obtain ⟨j, hj, himpl⟩ := h.services i hi
  obtain ⟨e, scb, he, hscb⟩ := getCoserviceScb_handle (l := l) (h.endpoints j hj)
  refine ⟨s.setEndpoint j e, scb, ?_, h.setEndpoint he, rfl⟩
  simp [Daemon.discover, getServiceEndpoint, hload, himpl, hscb]

theorem unsealEndpoint_untagged (h : c.tag = false) : (unsealEndpoint c).tag = false := by
  unfold unsealEndpoint
  split
  · exact h
  · exact h
  · rfl

/-- What is loaded through another capability into the table has no tag. -/
theorem loadImpl_untagged (h : Inv l s) (hin : l.InTable c.addr) (hc : ¬Genuine l s c)
    {v : ServiceCap} (hv : s.loadImpl l c = some v) : v.tag = false := by
  unfold Daemon.loadImpl at hv
  simp only at hv
  split at hv
  · rename_i hloads
    rw [← Option.some.inj hv]
    unfold loaded
    split
    · rename_i hperm
      split
      · rename_i hmod
        have hentry : c.addr = l.service ((c.addr - l.services) / sizeofCoservice) := by
          have hdiv := Nat.div_add_mod (c.addr - l.services) sizeofCoservice
          rw [hmod, Nat.add_zero, Nat.mul_comm] at hdiv
          rw [Layout.service, hdiv]
          have hle := hin.1
          omega
        -- An entry that was not handed out has no endpoint.
        rw [h.fresh]
        · rfl
        · by_contra hlt
          exact hc ⟨hloads.1, hperm, _, Nat.not_le.mp hlt, hentry⟩
      · rfl
    · rfl
  · cases hv

/-- Any other capability into the table faults. -/
theorem discover_eq_none (h : Inv l s) (hin : l.InTable c.addr) (hc : ¬Genuine l s c) :
    s.discover l c = none := by
  unfold Daemon.discover getServiceEndpoint
  cases hv : s.loadImpl l c with
  | none => rfl
  | some v =>
    have huntagged := unsealEndpoint_untagged (loadImpl_untagged h hin hc hv)
    exact getCoserviceScb_untagged huntagged

/-! ### Allocation -/

/-- The counters after an entry was taken. -/
def taken (t : Tables) (a : Allocator) : Tables :=
  Function.update t a ⟨(t a).next + 1, sizeSucc (t a).active⟩

theorem runAlloc_free {t : Tables} {a : Allocator} (h : (t a).next < maxServices) :
    runAlloc a 2 t .entry = (taken t a, some (t a).next) := by
  have hsucc : sizeSucc (t a).next = (t a).next + 1 := by
    unfold maxServices at h
    exact Nat.mod_eq_of_lt (by omega)
  simp [runAlloc, Tables.advance, Nat.not_le.mpr h, hsucc, taken]

theorem runAlloc_full {t : Tables} {a : Allocator} (h : maxServices ≤ (t a).next) :
    (runAlloc a 2 t .entry).2 = none := by
  cases a <;> simp [runAlloc, Tables.advance, h]

/-- The tables with one more service, and with one more endpoint. -/
def addService (s : Daemon) (service : Coservice) : Daemon :=
  { s with
    counters := taken s.counters .coservice
    services := Function.update s.services (nextService s) service }
def addEndpoint (s : Daemon) (e : Endpoint ServiceCap) : Daemon :=
  { s with
    counters := taken s.counters .endpoint
    endpoints := Function.update s.endpoints (nextEndpoint s) e }

theorem allocate_coservice (h : nextService s < maxServices) :
    s.allocate .coservice = (addService s emptyService, some (nextService s)) := by
  simp [Daemon.allocate, runAlloc_free h, addService, Daemon.setService]

theorem allocate_endpoint (h : nextEndpoint s < maxServices) :
    s.allocate .endpoint = (addEndpoint s emptyEndpoint, some (nextEndpoint s)) := by
  simp [Daemon.allocate, runAlloc_free h, addEndpoint, Daemon.setEndpoint]

theorem allocate_full {a : Allocator} (h : maxServices ≤ (s.counters a).next) :
    ∃ t, s.allocate a = (t, none) := by
  have hnone := runAlloc_full h
  unfold Daemon.allocate
  split
  · exact ⟨_, rfl⟩
  · rename_i heq
    rw [heq] at hnone
    cases hnone

@[simp] theorem nextService_addService (s : Daemon) (service : Coservice) :
    nextService (addService s service) = nextService s + 1 := by
  simp [nextService, addService, taken]

@[simp] theorem nextEndpoint_addService (s : Daemon) (service : Coservice) :
    nextEndpoint (addService s service) = nextEndpoint s := by
  simp [nextEndpoint, addService, taken]

@[simp] theorem nextService_addEndpoint (s : Daemon) (e : Endpoint ServiceCap) :
    nextService (addEndpoint s e) = nextService s := by
  simp [nextService, addEndpoint, taken]

@[simp] theorem nextEndpoint_addEndpoint (s : Daemon) (e : Endpoint ServiceCap) :
    nextEndpoint (addEndpoint s e) = nextEndpoint s + 1 := by
  simp [nextEndpoint, addEndpoint, taken]

theorem inv_addService (h : Inv l s) (hfree : nextService s < maxServices) {service : Coservice}
    (hj : j < nextEndpoint s) (himpl : service.impl = endpointHandle l j) :
    Inv l (addService s service) where
  counters a := by
    cases a with
    | coservice =>
      show nextService (addService s service) ≤ maxServices
      rw [nextService_addService]
      exact hfree
    | endpoint =>
      show nextEndpoint (addService s service) ≤ maxServices
      rw [nextEndpoint_addService]
      exact h.counters .endpoint
  services k hk := by
    rw [nextService_addService] at hk
    rw [nextEndpoint_addService]
    -- The new entry has the endpoint `j`, and the others are as they were.
    by_cases hnew : k = nextService s
    · refine ⟨j, hj, ?_⟩
      show (Function.update s.services (nextService s) service k).impl = _
      rw [hnew, Function.update_self, himpl]
    · show ∃ j, _ ∧ (Function.update s.services (nextService s) service k).impl = _
      rw [Function.update_of_ne hnew]
      exact h.services k (by omega)
  fresh k hk := by
    rw [nextService_addService] at hk
    show (Function.update s.services (nextService s) service k).impl = _
    rw [Function.update_of_ne (by omega)]
    exact h.fresh k (by omega)
  endpoints k hk := by
    rw [nextEndpoint_addService] at hk
    exact h.endpoints k hk

theorem inv_addEndpoint (h : Inv l s) (hfree : nextEndpoint s < maxServices) (he : Working e) :
    Inv l (addEndpoint s e) where
  counters a := by
    cases a with
    | coservice =>
      show nextService (addEndpoint s e) ≤ maxServices
      rw [nextService_addEndpoint]
      exact h.counters .coservice
    | endpoint =>
      show nextEndpoint (addEndpoint s e) ≤ maxServices
      rw [nextEndpoint_addEndpoint]
      exact hfree
  services k hk := by
    rw [nextService_addEndpoint] at hk
    rw [nextEndpoint_addEndpoint]
    obtain ⟨j, hj, himpl⟩ := h.services k hk
    exact ⟨j, by omega, himpl⟩
  fresh k hk := by
    rw [nextService_addEndpoint] at hk
    exact h.fresh k hk
  endpoints k hk := by
    rw [nextEndpoint_addEndpoint] at hk
    show Working (Function.update s.endpoints (nextEndpoint s) e k)
    by_cases hnew : k = nextEndpoint s
    · rw [hnew, Function.update_self]
      exact he
    · rw [Function.update_of_ne hnew]
      exact h.endpoints k (by omega)

/-- The two allocations in the order of `provide_coservice`. -/
theorem addService_addEndpoint (s : Daemon) (service : Coservice) (e : Endpoint ServiceCap) :
    addEndpoint (addService s service) e = addService (addEndpoint s e) service := by
  simp only [addEndpoint, addService, nextService, nextEndpoint, taken, ne_eq, reduceCtorEq,
    not_false_eq_true, Function.update_of_ne]
  rw [Function.update_comm (by decide)]

theorem setService_addService (s : Daemon) (service service' : Coservice) :
    (addService s service).setService (nextService s) service' = addService s service' := by
  simp [addService, Daemon.setService]

theorem setEndpoint_addEndpoint (s : Daemon) (e e' : Endpoint ServiceCap) :
    (addEndpoint s e).setEndpoint (nextEndpoint s) e' = addEndpoint s e' := by
  simp [addEndpoint, Daemon.setEndpoint]

/-! ### Handles -/

theorem createCoserviceHandle_new {op flags : Int} :
    createCoserviceHandle (l.servicePtr i) ⟨l.endpointPtr j, op, flags⟩ =
      (serviceHandle l i, ⟨endpointHandle l j, op, flags⟩) := rfl

theorem createCoserviceHandle_sealed {op flags : Int} :
    createCoserviceHandle (l.servicePtr i) ⟨endpointHandle l j, op, flags⟩ =
      (serviceHandle l i, ⟨endpointHandle l j, op, flags⟩) := rfl

theorem genuine_serviceHandle (hi : i < nextService s) : Genuine l s (serviceHandle l i) := by
  have hperms : (serviceHandle l i).perms = dataPerms &&& coserviceHandlePerms := rfl
  refine ⟨⟨rfl, rfl, ?_, ?_, ?_⟩, ?_, i, hi, rfl⟩
  · rw [hperms]
    decide
  · exact Nat.le_refl _
  · show l.service i + 0 + chericapSize ≤ l.service i + sizeofCoservice
    simp [sizeofCoservice, chericapSize]
  · rw [hperms]
    decide

/-- A service through which an SCB is found. -/
def Usable (l : Layout) (s : Daemon) (c : ServiceCap) : Prop :=
  ∃ s' scb, s.discover l c = some (s', scb)

theorem usable_of_genuine (h : Inv l s) (hc : Genuine l s c) : Usable l s c := by
  obtain ⟨s', scb, heq, -, -⟩ := discover_genuine h hc
  exact ⟨s', scb, heq⟩

/-! ### `provide_coservice` and `provide_coservice2` -/

theorem provideCoservice_eq {nworkers flags op : Int} {scbs : List ServiceCap}
    (hs : nextService s < maxServices) (he : nextEndpoint s < maxServices) :
    s.provideCoservice l nworkers scbs flags op =
      some (addService (addEndpoint s ⟨scbs, nworkers, 0⟩)
        ⟨endpointHandle l (nextEndpoint s), op, flags⟩,
        .ok (serviceHandle l (nextService s)) none) := by
  have he' : nextEndpoint (addService s emptyService) < maxServices := by simpa using he
  have hset (e : Endpoint ServiceCap) (service : Coservice) :
      ((addEndpoint (addService s emptyService) emptyEndpoint).setEndpoint (nextEndpoint s)
        e).setService (nextService s) service = addService (addEndpoint s e) service := by
    have hnext : nextEndpoint s = nextEndpoint (addService s emptyService) := by simp
    rw [hnext, setEndpoint_addEndpoint, addService_addEndpoint]
    exact setService_addService (addEndpoint s e) emptyService service
  simp only [Daemon.provideCoservice, allocate_coservice hs, allocate_endpoint he',
    nextEndpoint_addService, Option.bind_eq_bind, Option.bind_some, createCoserviceHandle_new, hset]

theorem provideCoservice_full {nworkers flags op : Int} {scbs : List ServiceCap}
    (h : maxServices ≤ nextService s ∨ maxServices ≤ nextEndpoint s) :
    s.provideCoservice l nworkers scbs flags op = none := by
  -- Either `coservice_ptr` is `NULL`, or its `impl` is.
  by_cases hs : maxServices ≤ nextService s
  · obtain ⟨t, ht⟩ := allocate_full hs
    simp only [Daemon.provideCoservice, ht, Option.bind_eq_bind, Option.bind_none]
  · have he : maxServices ≤ nextEndpoint (addService s emptyService) := by
      simpa using h.resolve_left hs
    obtain ⟨t, ht⟩ := allocate_full he
    simp only [Daemon.provideCoservice, allocate_coservice (Nat.not_le.mp hs), ht,
      Option.bind_eq_bind, Option.bind_some, Option.bind_none]

theorem provideCoservice2_eq {flags op : Int} (hs : nextService s < maxServices) :
    s.provideCoservice2 l (endpointHandle l j) flags op =
      some (addService s ⟨endpointHandle l j, op, flags⟩,
        .ok (serviceHandle l (nextService s)) none) := by
  simp only [Daemon.provideCoservice2, allocate_coservice hs, Option.bind_eq_bind,
    Option.bind_some, createCoserviceHandle_sealed, setService_addService]

theorem provideCoservice2_full {flags op : Int} (hs : maxServices ≤ nextService s) :
    s.provideCoservice2 l c flags op = none := by
  obtain ⟨t, ht⟩ := allocate_full hs
  simp only [Daemon.provideCoservice2, ht, Option.bind_eq_bind, Option.bind_none]

/-! ### The array of `coprovide` -/

theorem loads_entry {scbs : ScbArray} {n : Nat} (h : scbs.cap.Loads 0 (n * chericapSize))
    (hi : i < n) : scbs.cap.Loads (i * chericapSize) chericapSize := by
  obtain ⟨htag, hot, hperm, hbase, hbound⟩ := h
  refine ⟨htag, hot, hperm, by omega, ?_⟩
  have hle : (i + 1) * chericapSize ≤ n * chericapSize := Nat.mul_le_mul_right _ hi
  rw [Nat.succ_mul] at hle
  omega

/-- The loop accepts an array that can be read. -/
theorem scbLoop_eq {scbs : ScbArray} {m : Nat} (haligned : scbs.cap.addr % chericapSize = 0)
    (h : scbs.cap.Loads 0 (m * chericapSize)) (n : Nat) (hle : i + n ≤ m) :
    scbLoop scbs i n = some true := by
  induction n generalizing i with
  | zero => rfl
  | succ n ih =>
    have hloads : LoadsCap scbs.cap (i * chericapSize) := by
      refine ⟨loads_entry h (by omega), ?_⟩
      rw [Nat.add_mul_mod_self_right, haligned]
    rw [scbLoop, if_pos hloads]
    simp only [validScb, Bool.true_eq_false, if_false]
    exact ih (by omega)

end Facts

end Comsg.Proofs.Coserviced
