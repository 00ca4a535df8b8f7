import Comsg.Coeventd.Daemon
import Comsg.Lib.Transition

/-!
# `Comsg.Proofs.Coeventd.Effect`: what a step does to coeventd

Between two steps no event is in progress, as long as coeventd serves (`Idle`). The locks that a
request takes are free then, unless the event is finished. `Change` lists what a step can do,
with what has been checked by then, and `step_change` shows that there is nothing else.

`trigger_rule` is the rule for the loop of the trigger, and `Elsewhere` is its frame: a trigger
works on its own event and on the flags of functions.
-/

set_option autoImplicit false

namespace Comsg.Proofs.Coeventd

open Comsg.Lib
open Comsg.Coeventd

/-- No event is in progress. -/
def Idle (s : Daemon) : Prop :=
  ∀ pid, (s.procTable pid).inProgress = 0 ∨ (s.procTable pid).inProgress = -1

/-! ### The changes -/

/-- The event of a process is set up, unless it is already. -/
def openEvent (s : Daemon) (pid : Nat) : Daemon :=
  if (s.procTable pid).cePid ≠ pid ∨ (s.procTable pid).inProgress = -1 then
    { s.setEvent pid ⟨pid, 0, []⟩ with monitored := Function.update s.monitored pid true }
  else s

/-- A new callback at the end of a queue. -/
def enqueue (s : Daemon) (pid : Nat) (func : Ptr) (args : CocallbackArgs) : Daemon :=
  let e := s.procTable pid
  { s.setEvent pid { e with callbacks := e.callbacks ++ [⟨s.serial, func, args⟩] } with
    serial := s.serial + 1
    added := Function.update s.added pid (s.added pid ++ [s.serial]) }

/-- The record for the death of a provider, in a queue that is empty. -/
def withRecord (s : Daemon) (pid : Nat) : Daemon :=
  if (s.procTable pid).callbacks = [] then enqueue s pid s.providerDeath (.provided []) else s

/-- Where the table is after a new entry. -/
def baseAfter (s : Daemon) (newBase : Nat) : Nat :=
  if s.tblLen ≤ s.funcs.length then newBase else s.base

/-- The first callback of a queue, with one more function in its list. -/
def linked (s : Daemon) (ccb : Cocallback) (func : Ptr) : Cocallback :=
  { ccb with args := .provided (func :: s.providedFuncs ccb.args) }

/-- A new function, linked into the list of its provider. -/
def addFunc (s : Daemon) (func : CocallbackFunc) (newBase : Nat) (ccb : Cocallback)
    (rest : List Cocallback) : Daemon :=
  let e := s.procTable func.provider
  let ptr : Ptr := ⟨baseAfter s newBase, s.funcs.length⟩
  { s.setEvent func.provider { e with callbacks := linked s ccb ptr :: rest } with
    base := baseAfter s newBase
    tblLen := if s.tblLen ≤ s.funcs.length then s.tblLen + baseTblLen else s.tblLen
    funcs := s.funcs ++ [func] }

/-- What a step of coeventd can do. -/
inductive Change (s : Daemon) : Action → Daemon → Prop
  | refused (pid : Nat) (r : Request) : Change s (.request pid r) s
  | listened (pid : Nat) (event : CoeventType) (subject : Nat) (halive : s.alive pid = true) :
      Change s (.request pid (.colisten event subject)) (openEvent s pid)
  | registered (pid : Nat) (scb : Scb) (flags : Flags) (newBase : Nat) (ccb : Cocallback)
      (rest : List Cocallback) (halive : s.alive pid = true) (hself : pid ≠ s.mypid)
      (htag : scb.tag = true) (hsealed : scb.isSealed = true)
      (hqueue : ((withRecord (openEvent s pid) pid).procTable pid).callbacks = ccb :: rest)
      (hfirst : ccb.func = s.providerDeath) :
      Change s (.request pid (.ccbRegister scb flags newBase))
        (addFunc (withRecord (openEvent s pid) pid) ⟨scb, pid, flags⟩ newBase ccb rest)
  | installed (pid p : Nat) (func : Ptr) (len : Nat) (data : Ptr)
      (hpid : (s.procTable p).cePid = p) (hp : p ≠ 0) (hfree : (s.procTable p).inProgress = 0) :
      Change s (.request pid (.ccbInstall true (.proc p) true func len data))
        (enqueue s p func (.data len data))
  | faulted (pid : Nat) (r : Request) : Change s (.request pid r) { s with fate := .faulted }
  | aborted (pid : Nat) (scb : Scb) (flags : Flags) (newBase : Nat) (ccb : Cocallback)
      (rest : List Cocallback) (halive : s.alive pid = true) (hself : pid ≠ s.mypid)
      (htag : scb.tag = true) (hsealed : scb.isSealed = true)
      (hqueue : ((withRecord (openEvent s pid) pid).procTable pid).callbacks = ccb :: rest)
      (hfirst : ccb.func ≠ s.providerDeath) :
      Change s (.request pid (.ccbRegister scb flags newBase)) { s with fate := .aborted }
  | stored (ptr : Ptr) (func : CocallbackFunc) (chain : List Ptr) :
      Change s (.store ptr func chain) { s with
        memory := Function.update s.memory ptr func
        chains := Function.update s.chains ptr chain }
  | died (pid : Nat) (halive : s.alive pid = true) (hself : pid ≠ s.mypid) :
      Change s (.die pid) { s with alive := Function.update s.alive pid false }
  | reported (pid : Nat) (hdead : s.alive pid = false) (hmonitored : s.monitored pid = true) :
      Change s (.report pid) (s.triggerCocallbacks pid)

/-- An entry of a table with one more entry is old, or it is the new one. -/
theorem entry_cases {α : Type} {xs : List α} {x y : α} {i : Nat}
    (h : (xs ++ [x])[i]? = some y) : xs[i]? = some y ∨ (i = xs.length ∧ y = x) := by
  by_cases hlt : i < xs.length
  · rw [List.getElem?_append_left hlt] at h
    exact .inl h
  · obtain rfl : i = xs.length := by
      have := (List.getElem?_eq_some_iff.mp h).1
      rw [List.length_append, List.length_singleton] at this
      omega
    rw [List.getElem?_concat_length, Option.some.injEq] at h
    exact .inr ⟨rfl, h.symm⟩

/-- The function under a pointer to an entry of the table. -/
theorem deref_entry {s : Daemon} {i : Nat} {f : CocallbackFunc} (h : s.funcs[i]? = some f) :
    s.deref ⟨s.base, i⟩ = f := by
  simp [Daemon.deref, h]

/-- An old entry keeps its place. -/
theorem entry_append {α : Type} {xs : List α} {x y : α} {i : Nat} (h : xs[i]? = some y) :
    (xs ++ [x])[i]? = some y := by
  rw [List.getElem?_append_left (List.getElem?_eq_some_iff.mp h).1, h]

section Requests
variable {s s' : Daemon} {pid : Nat}

theorem allocate_eq (h : Idle s) : s.allocateProcdeathEvent pid = some (openEvent s pid) := by
  simp only [Daemon.allocateProcdeathEvent, openEvent]
  rw [if_neg]
  · split <;> rfl
  · rintro ⟨h0, h1⟩
    rcases h pid with h | h
    · exact h0 h
    · exact h1 h

/-- Setting up an event touches nothing but the events. -/
theorem openEvent_kept (s : Daemon) (pid : Nat) :
    ∃ t m, openEvent s pid = { s with procTable := t, monitored := m } := by
  unfold openEvent
  split
  · exact ⟨_, _, rfl⟩
  · exact ⟨s.procTable, s.monitored, rfl⟩

/-- `monitor_provider` touches nothing but the events. -/
theorem monitor_kept (s : Daemon) (pid : Nat) :
    ∃ t m n added, withRecord (openEvent s pid) pid =
      { s with procTable := t, monitored := m, serial := n, added := added } := by
  obtain ⟨t, m, heq⟩ := openEvent_kept s pid
  rw [heq]
  unfold withRecord
  split
  · exact ⟨_, _, _, _, rfl⟩
  · exact ⟨t, m, s.serial, s.added, rfl⟩

theorem openEvent_fate (s : Daemon) (pid : Nat) : (openEvent s pid).fate = s.fate := by
  obtain ⟨t, m, heq⟩ := openEvent_kept s pid
  rw [heq]

theorem registered_fate (s : Daemon) (pid newBase : Nat) (f : CocallbackFunc) (ccb : Cocallback)
    (rest : List Cocallback) :
    (addFunc (withRecord (openEvent s pid) pid) f newBase ccb rest).fate = s.fate := by
  obtain ⟨t, m, n, added, heq⟩ := monitor_kept s pid
  rw [heq]
  rfl

/-- An event that is set up is free. -/
theorem openEvent_inProgress
    (h : (s.procTable pid).inProgress = 0 ∨ (s.procTable pid).inProgress = -1) :
    ((openEvent s pid).procTable pid).inProgress = 0 := by
  unfold openEvent
  split
  · simp [Daemon.setEvent]
  · rename_i hno
    rw [not_or] at hno
    exact h.resolve_right hno.2

theorem withRecord_inProgress :
    ((withRecord s pid).procTable pid).inProgress = (s.procTable pid).inProgress := by
  unfold withRecord
  split
  · simp [enqueue, Daemon.setEvent]
  · rfl

theorem monitor_inProgress (h : Idle s) (pid : Nat) :
    ((withRecord (openEvent s pid) pid).procTable pid).inProgress = 0 := by
  rw [withRecord_inProgress]
  exact openEvent_inProgress (h pid)

/-- `lock_coevent` on an event that is free. -/
theorem lock_eq {e : Coevent} (h : e.inProgress = 0) :
    e.lockCoevent = .ok { e with inProgress := 1 } := by
  simp [Coevent.lockCoevent, h]

/-- A lock that is taken and given up again leaves no trace. -/
theorem setEvent_same {e : Coevent} (h : (s.procTable pid).inProgress = 0)
    (he : e = { s.procTable pid with inProgress := 0 }) : s.setEvent pid e = s := by
  have hsame : e = s.procTable pid := by
    rw [he, ← h]
  rw [hsame, Daemon.setEvent, Function.update_eq_self]

theorem monitorProvider_eq (h : Idle s) :
    s.monitorProvider pid = .ok (withRecord (openEvent s pid) pid) := by
  have hfree := openEvent_inProgress (h pid)
  simp only [Daemon.monitorProvider, allocate_eq h]
  generalize openEvent s pid = t at hfree
  rw [lock_eq hfree]
  by_cases hempty : (t.procTable pid).callbacks = []
  · simp [withRecord, hempty, Daemon.queueCocallback, Coevent.addCocallback,
      Coevent.unlockCoevent, enqueue, Daemon.setEvent, hfree, bind, Except.bind]
  · simp [withRecord, hempty, Coevent.unlockCoevent, bind, Except.bind, setEvent_same hfree rfl]

/-- `add_func_to_provider` on an event that is free. -/
theorem addFuncToProvider_eq {func : Ptr} {ccb : Cocallback} {rest : List Cocallback}
    (hfree : (s.procTable pid).inProgress = 0)
    (hqueue : (s.procTable pid).callbacks = ccb :: rest) :
    s.addFuncToProvider pid func =
      if ccb.func ≠ s.providerDeath then .error .aborts
      else .ok (s.setEvent pid
        { s.procTable pid with callbacks := linked s ccb func :: rest }) := by
  simp only [Daemon.addFuncToProvider, lock_eq hfree]
  simp only [bind, Except.bind, hqueue]
  split
  · rfl
  · simp [Coevent.unlockCoevent, linked, hfree]

/-- The queue of a provider is not empty after `monitor_provider`. -/
theorem withRecord_queue (s : Daemon) (pid : Nat) :
    ∃ ccb rest, ((withRecord s pid).procTable pid).callbacks = ccb :: rest := by
  unfold withRecord
  split
  · rename_i hempty
    exact ⟨⟨s.serial, s.providerDeath, .provided []⟩, [], by
      simp [enqueue, Daemon.setEvent, hempty]⟩
  · rename_i hne
    exact List.exists_cons_of_ne_nil hne

/-- `register_cocallback_func` for a tagged SCB. -/
theorem registerCocallbackFunc_eq {scb : Scb} {flags : Flags} {newBase : Nat}
    (htag : scb.tag = true) : s.registerCocallbackFunc pid scb flags newBase =
      some ({ s with
        base := baseAfter s newBase
        tblLen := if s.tblLen ≤ s.funcs.length then s.tblLen + baseTblLen else s.tblLen
        funcs := s.funcs ++ [⟨scb, pid, flags⟩] }, ⟨baseAfter s newBase, s.funcs.length⟩) := by
  simp only [Daemon.registerCocallbackFunc, htag, Bool.true_eq_false, and_false, if_false,
    baseAfter]
  split <;> rfl

/-- `ccb_register` with an SCB that its validator accepts. -/
theorem cocallbackRegister_eq {scb : Scb} {flags : Flags} {newBase : Nat} {ccb : Cocallback}
    {rest : List Cocallback} (h : Idle s) (htag : scb.tag = true)
    (hsealed : scb.isSealed = true)
    (hqueue : ((withRecord (openEvent s pid) pid).procTable pid).callbacks = ccb :: rest) :
    s.cocallbackRegister pid scb flags newBase =
      if ccb.func ≠ s.providerDeath then .error .aborts
      else
        let t := withRecord (openEvent s pid) pid
        .ok (addFunc t ⟨scb, pid, flags⟩ newBase ccb rest,
          .func ⟨baseAfter t newBase, t.funcs.length⟩) := by
  have hfree := monitor_inProgress h pid
  have hdeath : (withRecord (openEvent s pid) pid).providerDeath = s.providerDeath := by
    obtain ⟨t, m, n, added, heq⟩ := monitor_kept s pid
    rw [heq]
  simp only [Daemon.cocallbackRegister, htag, hsealed, monitorProvider_eq h]
  generalize withRecord (openEvent s pid) pid = t at *
  simp only [Bool.true_eq_false, or_self, if_false, bind, Except.bind,
    registerCocallbackFunc_eq htag]
  -- The new entry does not touch the events.
  have hadd (u : Daemon) (hu : u.procTable = t.procTable) (ptr : Ptr) :
      u.addFuncToProvider pid ptr = if ccb.func ≠ u.providerDeath then .error .aborts
        else .ok (u.setEvent pid { u.procTable pid with callbacks := linked u ccb ptr :: rest }) :=
    addFuncToProvider_eq (hu ▸ hfree) (hu ▸ hqueue)
  rw [hadd _ (by rfl), ← hdeath]
  by_cases hfirst : ccb.func = t.providerDeath
  · simp only [hfirst, ne_eq, not_true, if_false]
    rfl
  · simp only [hfirst, ne_eq, not_false_iff, if_true]

theorem validateCoevent_eq {tag : Bool} {coevent : EventTarget} {p : Nat}
    (h : Daemon.validateCoevent tag coevent = some p) : tag = true ∧ coevent = .proc p := by
  unfold Daemon.validateCoevent at h
  split at h
  · cases h
  · rename_i htag
    cases coevent with
    | proc q =>
      cases h
      exact ⟨by simpa using htag, rfl⟩
    | foreign event => cases h

/-- `ccb_install` on an event that is free. -/
theorem installCocallback_eq {p : Nat} {funcTag : Bool} {func : Ptr} {args : CocallbackArgs}
    (hfree : (s.procTable p).inProgress = 0) :
    s.installCocallback true (.proc p) funcTag func args =
      if (s.procTable p).cePid ≠ p ∨ p = 0 ∨ funcTag = false then .error .faults
      else .ok (enqueue s p func args, .done) := by
  simp only [Daemon.installCocallback, Daemon.validateCoevent, Bool.true_eq_false, if_false,
    lock_eq hfree, bind, Except.bind, Daemon.queueCocallback, Coevent.addCocallback]
  rw [if_neg (by decide)]
  simp only
  split
  · rfl
  · simp [Coevent.unlockCoevent, enqueue, Daemon.setEvent, hfree]

/-- What a request that is answered does. Its assertions hold, unless the first callback of a
provider is not its record. -/
theorem handle_change {r : Request} (h : Idle s) (halive : s.alive pid = true)
    (hself : pid ≠ s.mypid) :
    (∀ s' reply, s.handle pid r = .ok (s', reply) → Change s (.request pid r) s') ∧
      (s.handle pid r = .error .aborts →
        Change s (.request pid r) { s with fate := .aborted }) := by
  cases r with
  | colisten event subject =>
    simp only [Daemon.handle, Daemon.addEventListener, allocate_eq h]
    refine ⟨fun s' reply hr => ?_, fun hr => ?_⟩
    · split at hr
      · split at hr
        · cases hr
          exact .refused _ _
        · cases hr
          exact .listened pid _ subject halive
      · cases hr
        exact .refused _ _
    · split at hr
      · split at hr <;> cases hr
      · cases hr
  | ccbRegister scb flags newBase =>
    by_cases hinvalid : scb.tag = false ∨ scb.isSealed = false
    · simp only [Daemon.handle, Daemon.cocallbackRegister, if_pos hinvalid]
      refine ⟨fun s' reply hr => ?_, fun hr => ?_⟩
      · cases hr
        exact .refused _ _
      · cases hr
    · simp only [not_or, Bool.not_eq_false] at hinvalid
      obtain ⟨htag, hsealed⟩ := hinvalid
      obtain ⟨ccb, rest, hqueue⟩ := withRecord_queue (openEvent s pid) pid
      simp only [Daemon.handle, cocallbackRegister_eq h htag hsealed hqueue]
      refine ⟨fun s' reply hr => ?_, fun hr => ?_⟩
      · split at hr
        · cases hr
        · rename_i hfirst
          cases hr
          exact .registered pid scb flags newBase ccb rest halive hself htag hsealed hqueue
            (not_not.mp hfirst)
      · split at hr
        · rename_i hfirst
          exact .aborted pid scb flags newBase ccb rest halive hself htag hsealed hqueue hfirst
        · cases hr
  | ccbInstall tag coevent funcTag func len data =>
    cases hvalid : Daemon.validateCoevent tag coevent with
    | none =>
      simp only [Daemon.handle, Daemon.installCocallback, hvalid]
      refine ⟨fun s' reply hr => ?_, fun hr => ?_⟩
      · cases hr
        exact .refused _ _
      · cases hr
    | some p =>
      obtain ⟨rfl, rfl⟩ := validateCoevent_eq hvalid
      rcases h p with hfree | hfinished
      · simp only [Daemon.handle, installCocallback_eq hfree]
        refine ⟨fun s' reply hr => ?_, fun hr => ?_⟩
        · split at hr
          · cases hr
          · rename_i hset
            simp only [not_or, not_not, Bool.not_eq_false] at hset
            obtain ⟨hpid, hp, rfl⟩ := hset
            cases hr
            exact .installed pid p func len data hpid hp hfree
        · split at hr <;> cases hr
      · -- The lock of a finished event is never free again.
        simp [Daemon.handle, Daemon.installCocallback, hvalid, Coevent.lockCoevent, hfinished,
          bind, Except.bind]

/-- Only a coeventd that serves takes steps. -/
theorem serving_of_step {a : Action} (hs : s.step a = some s') : s.fate = .serving := by
  unfold Daemon.step at hs
  split at hs
  · cases hs
  · rename_i hserving
    exact not_not.mp hserving

/-- What a step does. -/
theorem step_change {a : Action} (h : Idle s) (hs : s.step a = some s') : Change s a s' := by
  unfold Daemon.step at hs
  rw [if_neg (not_not.mpr (serving_of_step hs))] at hs
  cases a with
  | request pid r =>
    simp only at hs
    split at hs
    · rename_i hpid
      cases hr : s.handle pid r with
      | ok q =>
        simp only [hr, Option.some.injEq] at hs
        subst hs
        exact (handle_change h hpid.1 hpid.2).1 _ _ hr
      | error stop =>
        cases stop with
        | spins => simp [hr] at hs
        | faults =>
          simp only [hr, Option.some.injEq] at hs
          subst hs
          exact .faulted pid r
        | aborts =>
          simp only [hr, Option.some.injEq] at hs
          subst hs
          exact (handle_change h hpid.1 hpid.2).2 hr
    · cases hs
  | store ptr func chain =>
    cases hs
    exact .stored ptr func chain
  | die pid =>
    simp only at hs
    split at hs
    · rename_i hpid
      cases hs
      exact .died pid hpid.1 hpid.2
    · cases hs
  | report pid =>
    simp only at hs
    split at hs
    · rename_i hpid
      cases hs
      exact .reported pid hpid.1 hpid.2
    · cases hs

end Requests

/-! ### The trigger -/

/-- One callback of the trigger has returned. -/
def handledOne (s : Daemon) (pid : Nat) (ccb : Cocallback) (rest : List Cocallback) : Daemon :=
  let t := (s.executeCocallback ccb).1
  let entry : Handled := ⟨ccb, s.alive (s.deref ccb.func).provider, (s.executeCocallback ccb).2⟩
  { t.setEvent pid { t.procTable pid with callbacks := rest } with
    handled := Function.update t.handled pid (t.handled pid ++ [entry]) }

/-- The trigger has its event. -/
def startTrigger (s : Daemon) (pid : Nat) : Daemon :=
  { s.setEvent pid { s.procTable pid with inProgress := 1 } with
    monitored := Function.update s.monitored pid false }

/-- The trigger is done with its event. -/
def endTrigger (s : Daemon) (pid : Nat) : Daemon :=
  s.setEvent pid { s.procTable pid with inProgress := -1 }

section Trigger
variable {s t u : Daemon} {pid : Nat}

/-- The rule for the loop of the trigger: `P` holds before each callback, with those that are
left. -/
theorem triggerLoop_rule {P : List Cocallback → Daemon → Prop} {Q : Daemon → Prop}
    (hnext : ∀ s ccb rest, P (ccb :: rest) s → (s.executeCocallback ccb).2 ≠ .failed →
      P rest (handledOne s pid ccb rest))
    (hfail : ∀ s ccb rest, P (ccb :: rest) s → (s.executeCocallback ccb).2 = .failed →
      Q { handledOne s pid ccb rest with fate := .terminated })
    (hend : ∀ s, P [] s → Q (endTrigger s pid)) {queue : List Cocallback} (h : P queue s) :
    Q (s.triggerLoop pid queue) := by
  induction queue generalizing s with
  | nil => exact hend s h
  | cons ccb rest ih =>
    show Q (if (s.executeCocallback ccb).2 = .failed then
      { handledOne s pid ccb rest with fate := .terminated }
      else (handledOne s pid ccb rest).triggerLoop pid rest)
    split
    · rename_i hfailed
      exact hfail s ccb rest h hfailed
    · rename_i hfailed
      exact ih (hnext s ccb rest h hfailed)

/-- The rule for the trigger. -/
theorem trigger_rule {P : List Cocallback → Daemon → Prop} {Q : Daemon → Prop}
    (hnext : ∀ s ccb rest, P (ccb :: rest) s → (s.executeCocallback ccb).2 ≠ .failed →
      P rest (handledOne s pid ccb rest))
    (hfail : ∀ s ccb rest, P (ccb :: rest) s → (s.executeCocallback ccb).2 = .failed →
      Q { handledOne s pid ccb rest with fate := .terminated })
    (hend : ∀ s, P [] s → Q (endTrigger s pid))
    (h : P (s.procTable pid).callbacks (startTrigger s pid)) : Q (s.triggerCocallbacks pid) :=
  triggerLoop_rule hnext hfail hend h

/-- The entry with the flag that its provider is dead. -/
def asDead (f : CocallbackFunc) : CocallbackFunc := { f with flags := f.flags ||| flagDead }

theorem asDead_asDead (f : CocallbackFunc) : asDead (asDead f) = asDead f := by
  simp [asDead, BitVec.or_assoc]

/-- One store of the flag. -/
theorem flagFunc_eq (s : Daemon) (ptr : Ptr) :
    ∃ funcs memory, s.flagFunc ptr = { s with funcs := funcs, memory := memory } ∧
      ∀ i, funcs[i]? = s.funcs[i]?.map fun f => if ptr = ⟨s.base, i⟩ then asDead f else f := by
  unfold Daemon.flagFunc
  split
  · rename_i hptr
    refine ⟨_, s.memory, rfl, fun i => ?_⟩
    rw [List.getElem?_modify]
    have hiff : ptr.idx = i ↔ ptr = ⟨s.base, i⟩ := by
      rw [← hptr.1]
      constructor
      · rintro rfl
        rfl
      · intro h
        rw [h]
    simp only [hiff, asDead, Option.map_eq_map]
  · rename_i hptr
    refine ⟨s.funcs, _, rfl, fun i => ?_⟩
    cases hi : s.funcs[i]? with
    | none => rfl
    | some f =>
      have hne : ptr ≠ ⟨s.base, i⟩ := by
        rintro rfl
        exact hptr ⟨rfl, (List.getElem?_eq_some_iff.mp hi).1⟩
      simp [hne]

/-- What a walk over a list does to the table. -/
theorem foldl_flagFunc (l : List Ptr) (s : Daemon) :
    ∃ funcs memory, l.foldl Daemon.flagFunc s = { s with funcs := funcs, memory := memory } ∧
      ∀ i, funcs[i]? = s.funcs[i]?.map fun f =>
        if (⟨s.base, i⟩ : Ptr) ∈ l then asDead f else f := by
  induction l generalizing s with
  | nil => exact ⟨s.funcs, s.memory, rfl, fun i => by simp⟩
  | cons ptr l ih =>
    obtain ⟨funcs₁, memory₁, hone, hfuncs₁⟩ := flagFunc_eq s ptr
    obtain ⟨funcs, memory, hfold, hfuncs⟩ := ih (s.flagFunc ptr)
    rw [hone] at hfold hfuncs
    refine ⟨funcs, memory, by rw [List.foldl_cons, hone, hfold], fun i => ?_⟩
    rw [hfuncs i, hfuncs₁ i, Option.map_map]
    congr 1
    funext f
    simp only [Function.comp, List.mem_cons, eq_comm (a := (⟨s.base, i⟩ : Ptr))]
    by_cases hptr : ptr = ⟨s.base, i⟩
    · by_cases hl : (⟨s.base, i⟩ : Ptr) ∈ l <;> simp [hptr, hl, asDead_asDead]
    · by_cases hl : (⟨s.base, i⟩ : Ptr) ∈ l <;> simp [hptr, hl]

/-- What the trigger leaves alone: all but its own event and the flags of functions. -/
structure Elsewhere (s t : Daemon) (pid : Nat) : Prop where
  mypid : t.mypid = s.mypid
  base : t.base = s.base
  providerDeath : t.providerDeath = s.providerDeath
  alive : t.alive = s.alive
  serial : t.serial = s.serial
  added : t.added = s.added
  cePid : (t.procTable pid).cePid = (s.procTable pid).cePid
  events : ∀ p, p ≠ pid → t.procTable p = s.procTable p
  handled : ∀ p, p ≠ pid → t.handled p = s.handled p
  funcs : ∀ i : Nat, t.funcs[i]?.map (fun f => (f.scb, f.provider)) =
    s.funcs[i]?.map (fun f => (f.scb, f.provider))

theorem Elsewhere.trans (h : Elsewhere s t pid) (h' : Elsewhere t u pid) : Elsewhere s u pid where
  mypid := h'.mypid.trans h.mypid
  base := h'.base.trans h.base
  providerDeath := h'.providerDeath.trans h.providerDeath
  alive := h'.alive.trans h.alive
  serial := h'.serial.trans h.serial
  added := h'.added.trans h.added
  cePid := h'.cePid.trans h.cePid
  events p hp := (h'.events p hp).trans (h.events p hp)
  handled p hp := (h'.handled p hp).trans (h.handled p hp)
  funcs i := (h'.funcs i).trans (h.funcs i)

/-- The entries of the table after the trigger, and before it. -/
theorem Elsewhere.entry {i : Nat} {f : CocallbackFunc} (h : Elsewhere s t pid)
    (hf : s.funcs[i]? = some f) :
    ∃ g, t.funcs[i]? = some g ∧ g.scb = f.scb ∧ g.provider = f.provider := by
  have hsame := h.funcs i
  rw [hf, Option.map_some, Option.map_eq_some_iff] at hsame
  obtain ⟨g, hg, hpair⟩ := hsame
  rw [Prod.mk.injEq] at hpair
  exact ⟨g, hg, hpair⟩

theorem Elsewhere.entry_before {i : Nat} {f : CocallbackFunc} (h : Elsewhere s t pid)
    (hf : t.funcs[i]? = some f) :
    ∃ g, s.funcs[i]? = some g ∧ g.scb = f.scb ∧ g.provider = f.provider := by
  have hsame := (h.funcs i).symm
  rw [hf, Option.map_some, Option.map_eq_some_iff] at hsame
  obtain ⟨g, hg, hpair⟩ := hsame
  rw [Prod.mk.injEq] at hpair
  exact ⟨g, hg, hpair⟩

/-- `execute_cocallback` changes flags only. -/
theorem executeCocallback_eq (s : Daemon) (ccb : Cocallback) :
    ∃ funcs memory, (s.executeCocallback ccb).1 = { s with funcs := funcs, memory := memory } ∧
      ∀ i : Nat, funcs[i]?.map (fun f => (f.scb, f.provider)) =
        s.funcs[i]?.map (fun f => (f.scb, f.provider)) := by
  simp only [Daemon.executeCocallback]
  split
  · obtain ⟨funcs, memory, hfold, hfuncs⟩ := foldl_flagFunc (s.providedFuncs ccb.args) s
    refine ⟨funcs, memory, hfold, fun i => ?_⟩
    rw [hfuncs i, Option.map_map]
    congr 1
    funext f
    simp only [Function.comp]
    split <;> rfl
  · split
    · exact ⟨s.funcs, s.memory, rfl, fun i => rfl⟩
    · split <;> exact ⟨s.funcs, s.memory, rfl, fun i => rfl⟩

theorem handledOne_callbacks (s : Daemon) (pid : Nat) (ccb : Cocallback)
    (rest : List Cocallback) : ((handledOne s pid ccb rest).procTable pid).callbacks = rest := by
  simp [handledOne, Daemon.setEvent]

theorem handledOne_fate (s : Daemon) (pid : Nat) (ccb : Cocallback) (rest : List Cocallback) :
    (handledOne s pid ccb rest).fate = s.fate := by
  obtain ⟨funcs, memory, hexec, -⟩ := executeCocallback_eq s ccb
  simp [handledOne, hexec, Daemon.setEvent]

/-- The callback joins those that the event has seen handled. -/
theorem handledOne_handled (s : Daemon) (pid : Nat) (ccb : Cocallback)
    (rest : List Cocallback) : (handledOne s pid ccb rest).handled pid = s.handled pid ++
      [⟨ccb, s.alive (s.deref ccb.func).provider, (s.executeCocallback ccb).2⟩] := by
  obtain ⟨funcs, memory, hexec, -⟩ := executeCocallback_eq s ccb
  simp [handledOne, hexec, Daemon.setEvent]

theorem elsewhere_handledOne (s : Daemon) (pid : Nat) (ccb : Cocallback)
    (rest : List Cocallback) : Elsewhere s (handledOne s pid ccb rest) pid := by
  obtain ⟨funcs, memory, hexec, hfuncs⟩ := executeCocallback_eq s ccb
  unfold handledOne
  rw [hexec]
  exact {
    mypid := rfl
    base := rfl
    providerDeath := rfl
    alive := rfl
    serial := rfl
    added := rfl
    cePid := by simp [Daemon.setEvent]
    events := fun p hp => by simp [Daemon.setEvent, Function.update_of_ne hp]
    handled := fun p hp => by simp [Function.update_of_ne hp]
    funcs := hfuncs }

theorem elsewhere_setEvent (s : Daemon) (pid : Nat) (e : Coevent)
    (he : e.cePid = (s.procTable pid).cePid) : Elsewhere s (s.setEvent pid e) pid where
  mypid := rfl
  base := rfl
  providerDeath := rfl
  alive := rfl
  serial := rfl
  added := rfl
  cePid := by simp [Daemon.setEvent, he]
  events p hp := by simp [Daemon.setEvent, Function.update_of_ne hp]
  handled _ _ := rfl
  funcs _ := rfl

theorem elsewhere_startTrigger (s : Daemon) (pid : Nat) : Elsewhere s (startTrigger s pid) pid :=
  { elsewhere_setEvent s pid { s.procTable pid with inProgress := 1 } rfl with }

/-- The trigger works on its event and the flags, and empties the event unless a callback
fails. -/
theorem trigger_elsewhere (s : Daemon) (pid : Nat) :
    Elsewhere s (s.triggerCocallbacks pid) pid ∧
      (((s.triggerCocallbacks pid).fate = s.fate ∧
        (s.triggerCocallbacks pid).procTable pid = ⟨(s.procTable pid).cePid, -1, []⟩) ∨
        (s.triggerCocallbacks pid).fate = .terminated) := by
  refine trigger_rule (P := fun queue t => Elsewhere s t pid ∧ t.fate = s.fate ∧
    (t.procTable pid).callbacks = queue) (Q := fun t => Elsewhere s t pid ∧
      ((t.fate = s.fate ∧ t.procTable pid = ⟨(s.procTable pid).cePid, -1, []⟩) ∨
        t.fate = .terminated)) ?_ ?_ ?_ ?_
  · rintro t ccb rest ⟨helse, hfate, -⟩ -
    exact ⟨helse.trans (elsewhere_handledOne t pid ccb rest),
      (handledOne_fate t pid ccb rest).trans hfate, handledOne_callbacks t pid ccb rest⟩
  · rintro t ccb rest ⟨helse, -, -⟩ -
    have hone := helse.trans (elsewhere_handledOne t pid ccb rest)
    exact ⟨{ hone with }, .inr rfl⟩
  · rintro t ⟨helse, hfate, hqueue⟩
    refine ⟨helse.trans (elsewhere_setEvent t pid _ rfl), .inl ⟨hfate, ?_⟩⟩
    simp [endTrigger, Daemon.setEvent, hqueue, helse.cePid]
  · exact ⟨elsewhere_startTrigger s pid, rfl, by simp [startTrigger, Daemon.setEvent]⟩

end Trigger

end Comsg.Proofs.Coeventd
