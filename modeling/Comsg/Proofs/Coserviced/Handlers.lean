import Comsg.Proofs.Coserviced.Services

/-!
# `Comsg.Proofs.Coserviced.Handlers`: which requests coserviced survives

The validators look at the address and the length of a capability, and rarely at its tag. So a
capability that is not refused may still fault when it is read. `validate_codiscover_args` reads
the object before it looks whether it is `NULL`. `validate_coprovide_args` reads the array of the
client without a look at its tag. And the handlers of `coprovide` and `coprovide2` do not look
whether a table is full.

`Harmless` collects the requests for which none of this happens. `handled_safely_iff` says that
they are the ones which coserviced survives, in every state that it reaches, and
`full_table_faults` that a client can fill a table.
-/

set_option autoImplicit false

namespace Comsg.Proofs.Coserviced

open Comsg.Lib
open Comsg.Libcomsg (Endpoint CocallNum coserviceMaxWorkers intMax)
open Comsg.Nsd (sizeofCoservice sizeofNsobject)
open Comsg.Coserviced
open Comsg.Coserviced.Daemon

section Requests
variable {l : Layout} {s : Daemon} {c : ServiceCap} {j : Nat}

/-- The seal of coserviced is only on what `create_coservice_handle` has sealed. -/
def Unforged (l : Layout) (s : Daemon) : Request → Prop
  | .coprovide2 endpoint _ _ => endpoint.tag = true → endpoint.otype = some .coservice →
    ∃ j, j < nextEndpoint s ∧ endpoint = endpointHandle l j
  | _ => True

/-- A capability to a service that is refused, or that can be read. -/
def RefusedOrGenuine (l : Layout) (s : Daemon) (c : ServiceCap) : Prop :=
  c.length < sizeofCoservice ∨ ¬l.InTable c.addr ∨ Genuine l s c

/-- The requests that coserviced survives. -/
def Harmless (l : Layout) (s : Daemon) : Request → Prop
  | .codiscover obj =>
    -- The object is read before anything is looked at.
    LoadsCap obj.cap 0 ∧ (obj.cap.addr = 0 ∨ (obj.cap.Loads offsetType sizeofInt ∧
      (obj.type ≠ NsobjectType.coservice.toInt ∨ obj.cap.length < sizeofNsobject ∨
        RefusedOrGenuine l s (loaded obj.cap obj.coservice))))
  | .codiscover2 c => c.addr = 0 ∨ c.otype.isSome = true ∨ RefusedOrGenuine l s c
  | .coprovide nworkers scbs _ _ calloc =>
    nworkers ≤ 0 ∨ (coserviceMaxWorkers : Int) < nworkers ∨
      (scbs.cap.length : Int) < chericapSize * nworkers ∨
      (calloc = true ∧ scbs.cap.Loads 0 (nworkers.toNat * chericapSize) ∧
        scbs.cap.addr % chericapSize = 0 ∧
        nextService s < maxServices ∧ nextEndpoint s < maxServices)
  | .coprovide2 endpoint _ _ =>
    endpoint.tag = false ∨ endpoint.otype ≠ some .coservice ∨ nextService s < maxServices

/-- A request that fails changes nothing, and a service that is returned can be used. -/
def Answers (l : Layout) (s s' : Daemon) : Reply → Prop
  | .err _        => s' = s
  | .ok service _ => Usable l s' service

/-- Coserviced survives the request. -/
def HandledSafely (l : Layout) (s : Daemon) (r : Request) : Prop :=
  ∃ s' reply, s.handle l r = some (s', reply) ∧ Answers l s s' reply

/-- What a request comes to that coserviced survives. -/
def Handled (l : Layout) (s : Daemon) (r : Request) : Prop :=
  ∃ s' reply, s.handle l r = some (s', reply) ∧ Inv l s' ∧ Answers l s s' reply

theorem handled_refused {r : Request} (h : Inv l s)
    (hrefused : s.handle l r = some (s, .err .einval)) : Handled l s r :=
  ⟨s, .err .einval, hrefused, h, rfl⟩

theorem handled_discover {r : Request} (h : Inv l s) (hc : Genuine l s c)
    (heq : s.handle l r = (s.discover l c).map fun p => (p.1, .ok c (some p.2))) :
    Handled l s r := by
  obtain ⟨s', scb, hdiscover, hinv, hcounters⟩ := discover_genuine h hc
  have hc' : Genuine l s' c := by
    unfold Genuine nextService
    rw [hcounters]
    exact hc
  refine ⟨s', .ok c (some scb), ?_, hinv, usable_of_genuine hinv hc'⟩
  rw [heq, hdiscover]
  rfl

theorem handle_codiscover2 (l : Layout) (s : Daemon) (c : ServiceCap) :
    s.handle l (.codiscover2 c) =
      if c.addr = 0 ∨ c.otype.isSome = true ∨ c.length < sizeofCoservice ∨ ¬l.InTable c.addr then
        some (s, .err .einval)
      else (s.discover l c).map fun p => (p.1, .ok c (some p.2)) := by
  by_cases hrefused :
      c.addr = 0 ∨ c.otype.isSome = true ∨ c.length < sizeofCoservice ∨ ¬l.InTable c.addr
  · rw [if_pos hrefused]
    have hvalidate : validateCodiscover2Args l c = false := by
      unfold validateCodiscover2Args
      rcases hrefused with h | h | h | h <;> simp [h, Layout.inTable]
    simp [Daemon.handle, hvalidate]
  · rw [if_neg hrefused]
    simp only [not_or, not_not] at hrefused
    obtain ⟨haddr, hot, hlen, hin⟩ := hrefused
    have hvalidate : validateCodiscover2Args l c = true := by
      simp [validateCodiscover2Args, haddr, hot, hlen, Layout.inTable, hin]
    simp only [Daemon.handle, hvalidate, Bool.true_eq_false, if_false, discoverCoservice2]
    cases s.discover l c <;> rfl

theorem codiscover2_handled (h : Inv l s) (hr : Harmless l s (.codiscover2 c)) :
    Handled l s (.codiscover2 c) := by
  by_cases hrefused :
      c.addr = 0 ∨ c.otype.isSome = true ∨ c.length < sizeofCoservice ∨ ¬l.InTable c.addr
  · refine handled_refused h ?_
    rw [handle_codiscover2, if_pos hrefused]
  · have hc : Genuine l s c := by
      simp only [not_or] at hrefused
      obtain ⟨haddr, hot, hlen, hin⟩ := hrefused
      -- The tests of the validator have failed, so that only the last case is left.
      rcases hr with h | h | h | h | h
      · exact absurd h haddr
      · exact absurd h hot
      · exact absurd h hlen
      · exact absurd h hin
      · exact h
    refine handled_discover h hc ?_
    rw [handle_codiscover2, if_neg hrefused]

theorem codiscover2_fault (h : Inv l s) (hr : ¬Harmless l s (.codiscover2 c)) :
    s.handle l (.codiscover2 c) = none := by
  simp only [Harmless, RefusedOrGenuine, not_or, not_not] at hr
  obtain ⟨haddr, hot, hlen, hin, hc⟩ := hr
  rw [handle_codiscover2, if_neg, discover_eq_none h hin hc]
  · rfl
  · simp only [not_or, not_not]
    exact ⟨haddr, hot, hlen, hin⟩

/-- The tests of `validate_codiscover_args` behind its loads. -/
def Refuses (l : Layout) (obj : NsobjArg) : Prop :=
  obj.type ≠ NsobjectType.coservice.toInt ∨ obj.cap.length < sizeofNsobject ∨
    (loaded obj.cap obj.coservice).length < sizeofCoservice ∨
    ¬l.InTable (loaded obj.cap obj.coservice).addr

instance (l : Layout) (obj : NsobjArg) : Decidable (Refuses l obj) :=
  inferInstanceAs (Decidable (_ ∨ _))

theorem validateCodiscoverArgs_eq {obj : NsobjArg} (hload : LoadsCap obj.cap 0) :
    validateCodiscoverArgs l obj =
      if obj.cap.addr = 0 then some false
      else if obj.cap.Loads offsetType sizeofInt then some (decide (¬Refuses l obj))
      else none := by
  -- A capability that was read is not sealed, so the test for it comes too late to refuse anything.
  have hot : obj.cap.otype.isSome = false := by
    have hnone := hload.1.2.1
    cases hopt : obj.cap.otype with
    | none => rfl
    | some ot => simp [hopt] at hnone
  unfold validateCodiscoverArgs
  rw [if_pos hload]
  simp only [hot, Bool.false_eq_true, if_false]
  split
  · rfl
  · split
    · by_cases hrefuses : Refuses l obj
      · rw [decide_eq_false (not_not.mpr hrefuses)]
        rcases hrefuses with h | h | h | h <;> simp [h, Layout.inTable]
      · have hno := hrefuses
        simp only [Refuses, not_or, not_not] at hno
        obtain ⟨htype, hlen, hhandle, hin⟩ := hno
        simp [htype, hlen, hhandle, hin, Layout.inTable, hrefuses]
    · rfl

theorem handle_codiscover {obj : NsobjArg} (hload : LoadsCap obj.cap 0) :
    s.handle l (.codiscover obj) =
      if obj.cap.addr = 0 then some (s, .err .einval)
      else if obj.cap.Loads offsetType sizeofInt then
        if Refuses l obj then some (s, .err .einval)
        else (s.discover l (loaded obj.cap obj.coservice)).map fun p =>
          (p.1, .ok (loaded obj.cap obj.coservice) (some p.2))
      else none := by
  simp only [Daemon.handle, validateCodiscoverArgs_eq hload]
  split
  · rfl
  · split
    · by_cases hrefuses : Refuses l obj
      · simp [hrefuses]
      · simp only [hrefuses, not_false_eq_true, decide_true, Option.bind_eq_bind,
          Option.bind_some, Bool.true_eq_false, if_false, discoverCoservice, if_pos hload]
        cases s.discover l (loaded obj.cap obj.coservice) <;> rfl
    · rfl

theorem codiscover_handled {obj : NsobjArg} (h : Inv l s)
    (hr : Harmless l s (.codiscover obj)) : Handled l s (.codiscover obj) := by
  obtain ⟨hload, hrest⟩ := hr
  by_cases haddr : obj.cap.addr = 0
  · refine handled_refused h ?_
    rw [handle_codiscover hload, if_pos haddr]
  · obtain ⟨htype, hsound⟩ := hrest.resolve_left haddr
    by_cases hrefuses : Refuses l obj
    · refine handled_refused h ?_
      rw [handle_codiscover hload, if_neg haddr, if_pos htype, if_pos hrefuses]
    · have hc : Genuine l s (loaded obj.cap obj.coservice) := by
        simp only [Refuses, not_or] at hrefuses
        obtain ⟨hobj, hlen, hhandle, hin⟩ := hrefuses
        rcases hsound with h | h | h | h | h
        · exact absurd h hobj
        · exact absurd h hlen
        · exact absurd h hhandle
        · exact absurd h hin
        · exact h
      refine handled_discover h hc ?_
      rw [handle_codiscover hload, if_neg haddr, if_pos htype, if_neg hrefuses]

theorem codiscover_fault {obj : NsobjArg} (h : Inv l s)
    (hr : ¬Harmless l s (.codiscover obj)) : s.handle l (.codiscover obj) = none := by
  by_cases hload : LoadsCap obj.cap 0
  · simp only [Harmless, hload, true_and, not_or, not_and] at hr
    obtain ⟨haddr, hrest⟩ := hr
    rw [handle_codiscover hload, if_neg haddr]
    by_cases htype : obj.cap.Loads offsetType sizeofInt
    · obtain ⟨hobj, hlen, hsound⟩ := hrest htype
      simp only [RefusedOrGenuine, not_or, not_not] at hsound
      obtain ⟨hhandle, hin, hc⟩ := hsound
      have hrefuses : ¬Refuses l obj := by
        simp only [Refuses, not_or, not_not]
        exact ⟨by simpa using hobj, hlen, hhandle, hin⟩
      rw [if_pos htype, if_neg hrefuses, discover_eq_none h hin hc]
      rfl
    · rw [if_neg htype]
  · simp [Daemon.handle, validateCodiscoverArgs, hload]

/-- A new service with the endpoint `j`, which the request has added or was given. -/
theorem handled_provide {r : Request} {t : Daemon} {service : Coservice} (h : Inv l t)
    (hfree : nextService t < maxServices) (hj : j < nextEndpoint t)
    (himpl : service.impl = endpointHandle l j)
    (heq : s.handle l r =
      some (addService t service, .ok (serviceHandle l (nextService t)) none)) :
    Handled l s r := by
  have hinv := inv_addService h hfree hj himpl
  have hc : Genuine l (addService t service) (serviceHandle l (nextService t)) :=
    genuine_serviceHandle (by simp)
  exact ⟨_, _, heq, hinv, usable_of_genuine hinv hc⟩

/-- The tests of `validate_coprovide_args` before it reads the array. -/
def RefusesArray (nworkers : Int) (scbs : ScbArray) : Prop :=
  nworkers ≤ 0 ∨ (coserviceMaxWorkers : Int) < nworkers ∨
    (scbs.cap.length : Int) < chericapSize * nworkers

theorem validateCoprovideArgs_refused {nworkers : Int} {scbs : ScbArray} {calloc : Bool}
    (h : RefusesArray nworkers scbs) :
    validateCoprovideArgs nworkers scbs calloc = some none := by
  unfold validateCoprovideArgs
  rcases h with h | h | h <;> simp [h]

/-- Behind the tests, the array is copied and read again. -/
theorem validateCoprovideArgs_eq {nworkers : Int} {scbs : ScbArray} {calloc : Bool}
    (h : ¬RefusesArray nworkers scbs) :
    validateCoprovideArgs nworkers scbs calloc =
      if calloc = true ∧ scbs.cap.Loads 0 (nworkers.toNat * chericapSize) ∧
          scbs.cap.addr % chericapSize = 0 then
        some (some ((List.range nworkers.toNat).map fun i => loaded scbs.cap (scbs.scb i)))
      else none := by
  simp only [RefusesArray, not_or] at h
  obtain ⟨hpos, hmax, hlen⟩ := h
  simp only [validateCoprovideArgs, if_neg hpos, if_neg hmax, if_neg hlen]
  cases calloc with
  | false => simp
  | true =>
    by_cases hloads : scbs.cap.Loads 0 (nworkers.toNat * chericapSize)
    · by_cases haligned : scbs.cap.addr % chericapSize = 0
      · simp [copyScbs, hloads, scbLoop_eq haligned hloads _ (Nat.le_of_eq (Nat.zero_add _)),
          haligned]
      -- The copy does not mind the alignment, and the loop faults at the first entry.
      · obtain ⟨n, hn⟩ : ∃ n, nworkers.toNat = n + 1 :=
          ⟨nworkers.toNat - 1, by omega⟩
        simp [copyScbs, hn, scbLoop, LoadsCap, haligned]
    · simp [copyScbs, hloads]

theorem coprovide_handled {nworkers flags op : Int} {scbs : ScbArray} {calloc : Bool}
    (h : Inv l s) (hr : Harmless l s (.coprovide nworkers scbs flags op calloc)) :
    Handled l s (.coprovide nworkers scbs flags op calloc) := by
  by_cases hrefuses : RefusesArray nworkers scbs
  · refine handled_refused h ?_
    simp [Daemon.handle, validateCoprovideArgs_refused hrefuses]
  · obtain ⟨hcalloc, hloads, haligned, hs, he⟩ : calloc = true ∧
        scbs.cap.Loads 0 (nworkers.toNat * chericapSize) ∧ scbs.cap.addr % chericapSize = 0 ∧
        nextService s < maxServices ∧ nextEndpoint s < maxServices := by
      simp only [RefusesArray, not_or] at hrefuses
      obtain ⟨hpos, hmax, hlen⟩ := hrefuses
      rcases hr with h | h | h | h
      · exact absurd h hpos
      · exact absurd h hmax
      · exact absurd h hlen
      · exact h
    have hvalidate : validateCoprovideArgs nworkers scbs calloc = _ :=
      validateCoprovideArgs_eq hrefuses
    rw [if_pos ⟨hcalloc, hloads, haligned⟩] at hvalidate
    have hworking : Working
        ⟨(List.range nworkers.toNat).map fun i => loaded scbs.cap (scbs.scb i), nworkers, 0⟩ := by
      simp only [RefusesArray, not_or, coserviceMaxWorkers] at hrefuses
      refine ⟨?_, ?_, ?_, Int.le_refl 0⟩
      · show 1 ≤ nworkers
        omega
      · show nworkers ≤ intMax
        unfold intMax
        omega
      · simp only [List.length_map, List.length_range]
        omega
    generalize (List.range nworkers.toNat).map (fun i => loaded scbs.cap (scbs.scb i)) = copy
      at hvalidate hworking
    have hs' : nextService (addEndpoint s ⟨copy, nworkers, 0⟩) < maxServices := by
      rw [nextService_addEndpoint]
      exact hs
    have hj : nextEndpoint s < nextEndpoint (addEndpoint s ⟨copy, nworkers, 0⟩) := by
      rw [nextEndpoint_addEndpoint]
      exact Nat.lt_succ_self _
    have heq : s.handle l (.coprovide nworkers scbs flags op calloc) =
        some (addService (addEndpoint s ⟨copy, nworkers, 0⟩)
          ⟨endpointHandle l (nextEndpoint s), op, flags⟩,
          .ok (serviceHandle l (nextService (addEndpoint s ⟨copy, nworkers, 0⟩))) none) := by
      simp only [Daemon.handle, hvalidate, Option.bind_eq_bind, Option.bind_some,
        provideCoservice_eq hs he, nextService_addEndpoint]
    exact handled_provide (inv_addEndpoint h he hworking) hs' hj rfl heq

theorem coprovide_fault {nworkers flags op : Int} {scbs : ScbArray} {calloc : Bool}
    (hr : ¬Harmless l s (.coprovide nworkers scbs flags op calloc)) :
    s.handle l (.coprovide nworkers scbs flags op calloc) = none := by
  simp only [Harmless, not_or] at hr
  obtain ⟨hpos, hmax, hlen, hrest⟩ := hr
  have hrefuses : ¬RefusesArray nworkers scbs := by
    simp only [RefusesArray, not_or]
    exact ⟨hpos, hmax, hlen⟩
  simp only [Daemon.handle, validateCoprovideArgs_eq hrefuses]
  by_cases hread : calloc = true ∧ scbs.cap.Loads 0 (nworkers.toNat * chericapSize) ∧
      scbs.cap.addr % chericapSize = 0
  · rw [if_pos hread]
    -- The array is fine, so it is a table that is full.
    have hfull : maxServices ≤ nextService s ∨ maxServices ≤ nextEndpoint s := by
      by_contra hfree
      rw [not_or, Nat.not_le, Nat.not_le] at hfree
      exact hrest ⟨hread.1, hread.2.1, hread.2.2, hfree⟩
    exact provideCoservice_full hfull
  · rw [if_neg hread]
    rfl

theorem coprovide2_handled {flags op : Int} (h : Inv l s)
    (hunforged : Unforged l s (.coprovide2 c flags op))
    (hr : Harmless l s (.coprovide2 c flags op)) : Handled l s (.coprovide2 c flags op) := by
  by_cases hvalid : c.tag = true ∧ c.otype = some .coservice
  · obtain ⟨htag, hot⟩ := hvalid
    -- The seal says that the endpoint is one of the table.
    obtain ⟨j, hj, rfl⟩ := hunforged htag hot
    have hs : nextService s < maxServices := by
      rcases hr with h | h | h
      · rw [htag] at h
        cases h
      · exact absurd hot h
      · exact h
    have heq : s.handle l (.coprovide2 (endpointHandle l j) flags op) =
        some (addService s ⟨endpointHandle l j, op, flags⟩,
          .ok (serviceHandle l (nextService s)) none) := provideCoservice2_eq hs
    exact handled_provide h hs hj rfl heq
  · refine handled_refused h ?_
    have hno : isValidEndpoint c = false := by
      simpa [isValidEndpoint] using hvalid
    simp [Daemon.handle, hno]

theorem coprovide2_fault {flags op : Int} (hr : ¬Harmless l s (.coprovide2 c flags op)) :
    s.handle l (.coprovide2 c flags op) = none := by
  simp only [Harmless, not_or, not_not, Bool.not_eq_false, Nat.not_lt] at hr
  obtain ⟨htag, hot, hfull⟩ := hr
  simp [Daemon.handle, isValidEndpoint, htag, hot, provideCoservice2_full hfull]

theorem handled_of_harmless {r : Request} (h : Inv l s) (hunforged : Unforged l s r)
    (hr : Harmless l s r) : Handled l s r := by
  cases r with
  | codiscover obj => exact codiscover_handled h hr
  | codiscover2 c => exact codiscover2_handled h hr
  | coprovide nworkers scbs flags op calloc => exact coprovide_handled h hr
  | coprovide2 endpoint flags op => exact coprovide2_handled h hunforged hr

theorem fault_of_not_harmless {r : Request} (h : Inv l s) (hr : ¬Harmless l s r) :
    s.handle l r = none := by
  cases r with
  | codiscover obj => exact codiscover_fault h hr
  | codiscover2 c => exact codiscover2_fault h hr
  | coprovide nworkers scbs flags op calloc => exact coprovide_fault hr
  | coprovide2 endpoint flags op => exact coprovide2_fault hr

/-! ### Startup and runs -/

/-- The workers of coserviced, as many as `get_fast_endpoint_count` says. -/
structure FastScbs (scbs : List ServiceCap) : Prop where
  pos : 1 ≤ scbs.length
  le : (scbs.length : Int) ≤ intMax

theorem inv_setupTable (l : Layout) : Inv l setupTable where
  counters _ := Nat.zero_le _
  services _ hi := absurd hi (Nat.not_lt_zero _)
  fresh _ _ := rfl
  endpoints _ hj := absurd hj (Nat.not_lt_zero _)

/-- The rest of `init_service`, when the service has its endpoint. -/
theorem initService_rest {t : Daemon} (h : Inv l t) (hs : nextService t < maxServices)
    (hj : j < nextEndpoint t) (op : Int) :
    ∃ e scb, (addService t emptyService).getCoserviceScb l (unsealEndpoint (endpointHandle l j)) =
        some ((addService t emptyService).setEndpoint j e, scb) ∧
      ((addService t emptyService).setEndpoint j e).setService (nextService t)
        ⟨endpointHandle l j, op, 0⟩ =
        addService (t.setEndpoint j e) ⟨endpointHandle l j, op, 0⟩ ∧
      Inv l (addService (t.setEndpoint j e) ⟨endpointHandle l j, op, 0⟩) := by
  have hworking : Working ((addService t emptyService).endpoints j) := h.endpoints j hj
  obtain ⟨e, scb, he, hscb⟩ := getCoserviceScb_handle (l := l) hworking
  refine ⟨e, scb, hscb, ?_, ?_⟩
  · exact setService_addService (t.setEndpoint j e) emptyService _
  · exact inv_addService (h.setEndpoint he) hs hj rfl

/-- `init_service` for the first service, which allocates the endpoint. -/
theorem initService_first {scbs : List ServiceCap} (h : Inv l s) (hscbs : FastScbs scbs)
    (hs : nextService s < maxServices) (he : nextEndpoint s < maxServices) (op : CocallNum) :
    ∃ s' j, initService l scbs op (s, none) = some (s', some (endpointHandle l j)) ∧
      Inv l s' ∧ j < nextEndpoint s' ∧ nextService s' = nextService s + 1 := by
  let e₀ : Endpoint ServiceCap := ⟨scbs, scbs.length, 1⟩
  have hpos := hscbs.pos
  have hworking : Working e₀ := by
    refine ⟨?_, hscbs.le, rfl, Int.zero_le_ofNat 1⟩
    show (1 : Int) ≤ scbs.length
    omega
  have hinv := inv_addEndpoint h he hworking
  have hs' : nextService (addEndpoint s e₀) < maxServices := by
    rw [nextService_addEndpoint]
    exact hs
  have hj : nextEndpoint s < nextEndpoint (addEndpoint s e₀) := by
    rw [nextEndpoint_addEndpoint]
    exact Nat.lt_succ_self _
  obtain ⟨e, scb, hscb, hset, hrest⟩ := initService_rest hinv hs' hj op.value
  refine ⟨_, nextEndpoint s, ?_, hrest, ?_, ?_⟩
  · have he' : nextEndpoint (addService s emptyService) < maxServices := by simpa using he
    have hnew : (addEndpoint (addService s emptyService) emptyEndpoint).setEndpoint
        (nextEndpoint s) e₀ = addService (addEndpoint s e₀) emptyService := by
      have hnext : nextEndpoint s = nextEndpoint (addService s emptyService) := by simp
      rw [hnext, setEndpoint_addEndpoint, addService_addEndpoint]
    rw [nextService_addEndpoint] at hset
    simp only [initService, allocate_coservice hs, allocate_endpoint he',
      nextEndpoint_addService, Option.bind_eq_bind, Option.bind_some, createCoserviceHandle_new,
      createCoserviceHandle_sealed, hnew, hscb, hset, e₀]
  · rw [nextEndpoint_addService]
    exact hj
  · rw [nextService_addService]
    show nextService (addEndpoint s e₀) + 1 = _
    rw [nextService_addEndpoint]

/-- `init_service` for the others, which share it. -/
theorem initService_next (scbs : List ServiceCap) (h : Inv l s)
    (hs : nextService s < maxServices) (hj : j < nextEndpoint s) (op : CocallNum) :
    ∃ s', initService l scbs op (s, some (endpointHandle l j)) =
        some (s', some (endpointHandle l j)) ∧
      Inv l s' ∧ j < nextEndpoint s' ∧ nextService s' = nextService s + 1 := by
  obtain ⟨e, scb, hscb, hset, hrest⟩ := initService_rest h hs hj op.value
  refine ⟨_, ?_, hrest, ?_, ?_⟩
  · simp only [initService, allocate_coservice hs, Option.bind_eq_bind, Option.bind_some,
      createCoserviceHandle_sealed, hscb, hset]
  · rw [nextEndpoint_addService]
    exact hj
  · rw [nextService_addService]
    rfl

/-- coserviced starts up with its four services. -/
theorem coservicedStartup_inv {scbs : List ServiceCap} (l : Layout) (hscbs : FastScbs scbs) :
    ∃ s₀ j, coservicedStartup l scbs = some s₀ ∧ Inv l s₀ ∧ nextService s₀ = 4 ∧
      j < nextEndpoint s₀ := by
  obtain ⟨s₁, j, heq₁, h₁, hj₁, hn₁⟩ := initService_first (inv_setupTable l) hscbs
    (by decide : 0 < maxServices) (by decide : 0 < maxServices) .codiscover
  have hzero : nextService setupTable = 0 := rfl
  obtain ⟨s₂, heq₂, h₂, hj₂, hn₂⟩ := initService_next scbs h₁
    (by unfold maxServices; omega) hj₁ .codiscover2
  obtain ⟨s₃, heq₃, h₃, hj₃, hn₃⟩ := initService_next scbs h₂
    (by unfold maxServices; omega) hj₂ .coprovide2
  obtain ⟨s₄, heq₄, h₄, hj₄, hn₄⟩ := initService_next scbs h₃
    (by unfold maxServices; omega) hj₃ .coprovide
  obtain ⟨e, scb, he, hscb⟩ := getCoserviceScb_handle (l := l) (h₄.endpoints j hj₄)
  refine ⟨s₄.setEndpoint j e, j, ?_, h₄.setEndpoint he, ?_, hj₄⟩
  · simp only [coservicedStartup, heq₁, heq₂, heq₃, heq₄, hscb, Option.bind_eq_bind,
      Option.bind_some]
  · show nextService s₄ = 4
    omega

/-- Every state that is reached has the invariant. -/
theorem inv_of_reach {scbs : List ServiceCap} {s₀ : Daemon} (hscbs : FastScbs scbs)
    (hstart : coservicedStartup l scbs = some s₀)
    (hreach : Reach (Daemon.step l) (Unforged l) s₀ s) : Inv l s := by
  refine hreach.invariant ?_ ?_
  · obtain ⟨s₁, j, hstart', hinv, -, -⟩ := coservicedStartup_inv l hscbs
    rw [hstart, Option.some.injEq] at hstart'
    exact hstart' ▸ hinv
  -- A step is a request that was survived.
  · intro t r t' _ hinv hunforged hstep
    unfold Daemon.step at hstep
    by_cases hr : Harmless l t r
    · obtain ⟨t₁, reply, heq, hinv', -⟩ := handled_of_harmless hinv hunforged hr
      rw [heq, Option.map_some, Option.some.injEq] at hstep
      exact hstep ▸ hinv'
    · rw [fault_of_not_harmless hinv hr] at hstep
      cases hstep

/-- In every state that coserviced reaches after its startup, a request is answered without a
fault, leaves the tables as they were when it fails, and returns a service with a usable endpoint
when it does not, if and only if it is harmless. -/
theorem handled_safely_iff {scbs : List ServiceCap} {s₀ : Daemon} (hscbs : FastScbs scbs)
    (hstart : coservicedStartup l scbs = some s₀)
    (hreach : Reach (Daemon.step l) (Unforged l) s₀ s) {r : Request}
    (hunforged : Unforged l s r) : HandledSafely l s r ↔ Harmless l s r := by
  have hinv := inv_of_reach hscbs hstart hreach
  constructor
  · rintro ⟨s', reply, heq, -⟩
    by_contra hr
    rw [fault_of_not_harmless hinv hr] at heq
    cases heq
  · intro hr
    obtain ⟨s', reply, heq, -, hanswers⟩ := handled_of_harmless hinv hunforged hr
    exact ⟨s', reply, heq, hanswers⟩

/-- `coprovide2` for an endpoint of coserviced adds services, as long as there is room. -/
theorem services_reached {scbs : List ServiceCap} {s₀ : Daemon} (hscbs : FastScbs scbs)
    (hstart : coservicedStartup l scbs = some s₀) (k : Nat) (hk : 4 + k ≤ maxServices) :
    ∃ s j, Reach (Daemon.step l) (Unforged l) s₀ s ∧ nextService s = 4 + k ∧
      j < nextEndpoint s := by
  induction k with
  | zero =>
    obtain ⟨s₁, j, hstart', -, hnext, hj⟩ := coservicedStartup_inv l hscbs
    rw [hstart, Option.some.injEq] at hstart'
    subst hstart'
    exact ⟨s₀, j, .init, hnext, hj⟩
  | succ k ih =>
    obtain ⟨s, j, hreach, hnext, hj⟩ := ih (by omega)
    have hunforged : Unforged l s (.coprovide2 (endpointHandle l j) 0 0) :=
      fun _ _ => ⟨j, hj, rfl⟩
    have hstep : s.step l (.coprovide2 (endpointHandle l j) 0 0) =
        some (addService s ⟨endpointHandle l j, 0, 0⟩) := by
      have heq : s.handle l (.coprovide2 (endpointHandle l j) 0 0) = _ :=
        provideCoservice2_eq (by omega)
      rw [Daemon.step, heq]
      rfl
    refine ⟨_, j, .next _ hreach hunforged hstep, ?_, ?_⟩
    · rw [nextService_addService]
      omega
    · rw [nextEndpoint_addService]
      exact hj

/-- So a client can fill the table, and the next request takes coserviced down. -/
theorem full_table_faults {scbs : List ServiceCap} {s₀ : Daemon} (hscbs : FastScbs scbs)
    (hstart : coservicedStartup l scbs = some s₀) :
    ∃ s r, Reach (Daemon.step l) (Unforged l) s₀ s ∧ Unforged l s r ∧ ¬HandledSafely l s r := by
  obtain ⟨s, j, hreach, hnext, hj⟩ := services_reached hscbs hstart 252 (by decide)
  refine ⟨s, .coprovide2 (endpointHandle l j) 0 0, hreach, fun _ _ => ⟨j, hj, rfl⟩, ?_⟩
  have hnone : s.handle l (.coprovide2 (endpointHandle l j) 0 0) = none :=
    provideCoservice2_full (Nat.le_of_eq hnext.symm)
  rintro ⟨s', reply, heq, -⟩
  rw [hnone] at heq
  cases heq

end Requests

/-- Tables at two addresses. -/
def exampleLayout : Layout := ⟨4096, 65536, by decide, by decide⟩

/-- The SCBs of four workers. -/
def fourScbs : List ServiceCap :=
  List.replicate 4 ⟨true, some .foreign, 4096, 4096, 4096, permLoad⟩

theorem fastScbs_fourScbs : FastScbs fourScbs := ⟨by decide, by decide⟩

/-- A client finds a worker of coserviced itself. -/
theorem handled_safely_iff_codiscover2 :
    ∃ s₀, coservicedStartup exampleLayout fourScbs = some s₀ ∧
      HandledSafely exampleLayout s₀ (.codiscover2 (serviceHandle exampleLayout 0)) := by
  obtain ⟨s₀, -, hstart, -, hnext, -⟩ := coservicedStartup_inv exampleLayout fastScbs_fourScbs
  refine ⟨s₀, hstart, ?_⟩
  have hunforged :
      Unforged exampleLayout s₀ (.codiscover2 (serviceHandle exampleLayout 0)) := trivial
  refine (handled_safely_iff fastScbs_fourScbs hstart .init hunforged).mpr (.inr (.inr ?_))
  exact .inr (.inr (genuine_serviceHandle (by omega)))

/-- A `codiscover` for the object `NULL` takes coserviced down. -/
theorem null_nsobj_faults :
    ∃ s₀, coservicedStartup exampleLayout fourScbs = some s₀ ∧
      ¬HandledSafely exampleLayout s₀ (.codiscover ⟨.null, .null, 0⟩) := by
  obtain ⟨s₀, -, hstart, -, -, -⟩ := coservicedStartup_inv exampleLayout fastScbs_fourScbs
  refine ⟨s₀, hstart, ?_⟩
  rintro ⟨s', reply, heq, -⟩
  cases heq

end Comsg.Proofs.Coserviced
