import Comsg.Coeventd.Counters
import Comsg.Proofs.Coeventd.Effect

/-!
# `Comsg.Proofs.Coeventd.CountEffect`: what a step does to the counters

coeventd with counters takes the steps of coeventd without them (`step_daemon`), so its runs are
runs of coeventd (`reach_daemon`). `CountChange` lists what a step can do to a coeventd that serves
on, with its counters, and `step_count` shows that there is nothing else. It is for the counters
what `Change` is for the rest.

`countedTrigger_rule` is the rule for the loop of the trigger.
-/

set_option autoImplicit false

namespace Comsg.Proofs.Coeventd

open Comsg.Lib
open Comsg.Coeventd

/-! ### The counters change nothing else -/

section Daemon
variable {c : CountedDaemon} {pid : Nat}

theorem allocate_daemon : (c.allocateProcdeathEvent pid).map (·.daemon) =
    c.daemon.allocateProcdeathEvent pid := by
  simp only [CountedDaemon.allocateProcdeathEvent, Option.map_map]
  have hsame : ((fun c : CountedDaemon => c.daemon) ∘ fun daemon =>
      if (c.daemon.procTable pid).cePid ≠ pid ∨ (c.daemon.procTable pid).inProgress = -1 then
        { c with daemon, ncallbacks := Function.update c.ncallbacks pid 0 }
      else { c with daemon }) = id := by
    funext daemon
    simp only [Function.comp]
    split <;> rfl
  rw [hsame, Option.map_id_fun, id]

theorem queue_daemon {e : Coevent} {func : Ptr} {args : CocallbackArgs} :
    (c.queueCocallback pid e func args).map (fun r => (r.1.daemon, r.2)) =
      c.daemon.queueCocallback pid e func args := by
  unfold CountedDaemon.queueCocallback
  cases c.daemon.queueCocallback pid e func args <;> rfl

theorem addEventListener_daemon {event : CoeventType} {subject : Nat} :
    (c.addEventListener pid event subject).map (fun r => (r.1.daemon, r.2)) =
      c.daemon.addEventListener pid event subject := by
  cases event with
  | processDeath =>
    simp only [CountedDaemon.addEventListener, Daemon.addEventListener, ← allocate_daemon]
    split
    · rfl
    · cases c.allocateProcdeathEvent pid <;> rfl
  | other value => rfl

theorem monitorProvider_daemon :
    (c.monitorProvider pid).map (·.daemon) = c.daemon.monitorProvider pid := by
  simp only [CountedDaemon.monitorProvider, Daemon.monitorProvider, ← allocate_daemon]
  cases c.allocateProcdeathEvent pid with
  | none => rfl
  | some d =>
    simp only [Option.map_some]
    cases (d.daemon.procTable pid).lockCoevent with
    | error stop => rfl
    | ok e =>
      simp only [bind, Except.bind]
      split
      · rw [← queue_daemon]
        cases d.queueCocallback pid e d.daemon.providerDeath (.provided []) with
        | error stop => rfl
        | ok r =>
          simp only [Except.map]
          cases r.2.unlockCoevent <;> rfl
      · cases e.unlockCoevent <;> rfl

theorem registerCocallbackFunc_daemon {scb : Scb} {flags : Flags} {newBase : Nat} :
    (c.registerCocallbackFunc pid scb flags newBase).map (fun r => (r.1.daemon, r.2)) =
      c.daemon.registerCocallbackFunc pid scb flags newBase := by
  unfold CountedDaemon.registerCocallbackFunc
  cases c.daemon.registerCocallbackFunc pid scb flags newBase <;> rfl

theorem cocallbackRegister_daemon {scb : Scb} {flags : Flags} {newBase : Nat} :
    (c.cocallbackRegister pid scb flags newBase).map (fun r => (r.1.daemon, r.2)) =
      c.daemon.cocallbackRegister pid scb flags newBase := by
  simp only [CountedDaemon.cocallbackRegister, Daemon.cocallbackRegister,
    ← monitorProvider_daemon]
  split
  · rfl
  · cases c.monitorProvider pid with
    | error stop => rfl
    | ok d =>
      simp only [Except.map, bind, Except.bind, ← registerCocallbackFunc_daemon]
      cases d.registerCocallbackFunc pid scb flags newBase with
      | none => rfl
      | some r =>
        simp only [Option.map_some]
        cases r.1.daemon.addFuncToProvider pid r.2 <;> rfl

theorem installCocallback_daemon {tag : Bool} {coevent : EventTarget} {funcTag : Bool}
    {func : Ptr} {args : CocallbackArgs} :
    (c.installCocallback tag coevent funcTag func args).map (fun r => (r.1.daemon, r.2)) =
      c.daemon.installCocallback tag coevent funcTag func args := by
  simp only [CountedDaemon.installCocallback, Daemon.installCocallback]
  cases Daemon.validateCoevent tag coevent with
  | none => rfl
  | some p =>
    simp only
    cases (c.daemon.procTable p).lockCoevent with
    | error stop => rfl
    | ok e =>
      simp only [bind, Except.bind, ← queue_daemon]
      cases c.queueCocallback p e func args with
      | error stop => rfl
      | ok r =>
        simp only [Except.map]
        by_cases hset : r.2.cePid ≠ p ∨ p = 0 ∨ funcTag = false
        · simp only [if_pos hset]
        · simp only [if_neg hset]
          cases r.2.unlockCoevent <;> rfl

theorem triggerLoop_daemon (queue : List Cocallback) :
    (c.triggerLoop pid queue).daemon = c.daemon.triggerLoop pid queue := by
  induction queue generalizing c with
  | nil => rfl
  | cons ccb rest ih =>
    simp only [CountedDaemon.triggerLoop, Daemon.triggerLoop]
    split
    · rfl
    · rw [ih]

theorem handle_daemon {r : Request} :
    (c.handle pid r).map (fun r => (r.1.daemon, r.2)) = c.daemon.handle pid r := by
  cases r with
  | colisten event subject => exact addEventListener_daemon
  | ccbRegister scb flags newBase => exact cocallbackRegister_daemon
  | ccbInstall tag coevent funcTag func len data => exact installCocallback_daemon

/-- A step of the counted coeventd is one of coeventd. -/
theorem step_daemon (c : CountedDaemon) (a : Action) :
    (c.step a).map (·.daemon) = c.daemon.step a := by
  by_cases hserving : c.daemon.fate = .serving
  · cases a with
    | request pid r =>
      simp only [CountedDaemon.step, Daemon.step, if_neg (not_not.mpr hserving), ← handle_daemon]
      split
      · cases c.handle pid r with
        | ok q => rfl
        | error stop => cases stop <;> rfl
      · rfl
    | report pid =>
      simp only [CountedDaemon.step, Daemon.step, if_neg (not_not.mpr hserving)]
      split
      · exact congrArg some (triggerLoop_daemon _)
      · rfl
    | store | die =>
      simp only [CountedDaemon.step, if_neg (not_not.mpr hserving), Option.map_map]
      exact Option.map_id'
  · simp only [CountedDaemon.step, Daemon.step, ne_eq, hserving, not_false_eq_true, if_true]
    rfl

end Daemon

/-- A run of the counted coeventd is one of coeventd. -/
theorem reach_daemon {ok : CountedDaemon → Action → Prop} {c₀ c : CountedDaemon}
    (h : Reach CountedDaemon.step ok c₀ c) : Reach Daemon.step anyAct c₀.daemon c.daemon :=
  h.map (·.daemon) step_daemon

/-- Only a coeventd that serves takes steps. -/
theorem countedServing_of_step {c c' : CountedDaemon} {a : Action} (hs : c.step a = some c') :
    c.daemon.fate = .serving :=
  serving_of_step (a := a) (by rw [← step_daemon, hs, Option.map_some])

/-! ### What a step does to the counters -/

/-- The event of a process is set up with no callbacks, unless it is already. -/
def opened (c : CountedDaemon) (pid : Nat) : CountedDaemon :=
  let e := c.daemon.procTable pid
  { c with
    daemon := openEvent c.daemon pid
    ncallbacks := if e.cePid ≠ pid ∨ e.inProgress = -1 then Function.update c.ncallbacks pid 0
      else c.ncallbacks }

/-- A new callback at the end of a queue, and one consumer more of its function. -/
def queued (c : CountedDaemon) (pid : Nat) (func : Ptr) (args : CocallbackArgs) :
    CountedDaemon :=
  { c with
    daemon := enqueue c.daemon pid func args
    consumers := Function.update c.consumers func (c.consumers func + 1) }

/-- The record for the death of a provider, in a queue that is empty. -/
def recorded (c : CountedDaemon) (pid : Nat) : CountedDaemon :=
  if (c.daemon.procTable pid).callbacks = [] then
    queued c pid c.daemon.providerDeath (.provided [])
  else c

/-- A new function, linked into the list of its provider. It has no consumers. -/
def withFunc (c : CountedDaemon) (func : CocallbackFunc) (newBase : Nat) (ccb : Cocallback)
    (rest : List Cocallback) : CountedDaemon :=
  let base := baseAfter c.daemon newBase
  let n := c.daemon.funcs.length
  { c with
    daemon := addFunc c.daemon func newBase ccb rest
    consumers := Function.update
      (CountedDaemon.moveConsumers c.consumers c.daemon.base base n) ⟨base, n⟩ 0 }

/-- The action queues a callback on the event of `p`: it registers a function of `p`, whose queue
is empty, or it installs a callback there. -/
def Queues (s : Daemon) (p : Nat) : Action → Prop
  | .request pid (.ccbRegister scb _ _) =>
    pid = p ∧ scb.tag = true ∧ scb.isSealed = true ∧ (s.procTable p).callbacks = []
  | .request _ (.ccbInstall tag coevent _ _ _ _) => Daemon.validateCoevent tag coevent = some p
  | _ => False

/-- What a step can do to a coeventd that serves on. -/
inductive CountChange (c : CountedDaemon) : Action → CountedDaemon → Prop
  | kept (a : Action) (alive : Nat → Bool) (memory : Ptr → CocallbackFunc)
      (chains : Ptr → List Ptr) (hquiet : ∀ p, ¬Queues c.daemon p a) :
      CountChange c a { c with daemon := { c.daemon with
        alive := alive, memory := memory, chains := chains } }
  | listened (pid : Nat) (event : CoeventType) (subject : Nat)
      (halive : c.daemon.alive pid = true) :
      CountChange c (.request pid (.colisten event subject)) (opened c pid)
  | registered (pid : Nat) (scb : Scb) (flags : Flags) (newBase : Nat) (ccb : Cocallback)
      (rest : List Cocallback) (halive : c.daemon.alive pid = true)
      (htag : scb.tag = true) (hsealed : scb.isSealed = true)
      (hqueue : ((recorded (opened c pid) pid).daemon.procTable pid).callbacks = ccb :: rest) :
      CountChange c (.request pid (.ccbRegister scb flags newBase))
        (withFunc (recorded (opened c pid) pid) ⟨scb, pid, flags⟩ newBase ccb rest)
  | installed (pid p : Nat) (func : Ptr) (len : Nat) (data : Ptr)
      (hpid : (c.daemon.procTable p).cePid = p) :
      CountChange c (.request pid (.ccbInstall true (.proc p) true func len data))
        (queued c p func (.data len data))
  | reported (pid : Nat) (hdead : c.daemon.alive pid = false) :
      CountChange c (.report pid) (c.triggerCocallbacks pid)

section Requests
variable {c c' : CountedDaemon} {pid : Nat}

theorem opened_daemon (c : CountedDaemon) (pid : Nat) :
    (opened c pid).daemon = openEvent c.daemon pid := rfl

theorem recorded_daemon (c : CountedDaemon) (pid : Nat) :
    (recorded c pid).daemon = withRecord c.daemon pid := by
  unfold recorded withRecord
  split <;> rfl

theorem countedAllocate_eq (h : Idle c.daemon) :
    c.allocateProcdeathEvent pid = some (opened c pid) := by
  simp only [CountedDaemon.allocateProcdeathEvent, allocate_eq h, Option.map_some, opened]
  split <;> rfl

theorem countedMonitor_eq (h : Idle c.daemon) :
    c.monitorProvider pid = .ok (recorded (opened c pid) pid) := by
  have hfree : ((opened c pid).daemon.procTable pid).inProgress = 0 :=
    openEvent_inProgress (h pid)
  simp only [CountedDaemon.monitorProvider, countedAllocate_eq h]
  generalize opened c pid = t at hfree
  rw [lock_eq hfree]
  by_cases hempty : (t.daemon.procTable pid).callbacks = []
  · simp [recorded, queued, hempty, CountedDaemon.queueCocallback, Daemon.queueCocallback,
      Coevent.addCocallback, Coevent.unlockCoevent, enqueue, Daemon.setEvent, hfree, bind,
      Except.bind]
  · simp [recorded, hempty, Coevent.unlockCoevent, bind, Except.bind, setEvent_same hfree rfl]

theorem countedRegister_eq {scb : Scb} {flags : Flags} {newBase : Nat} {ccb : Cocallback}
    {rest : List Cocallback} (h : Idle c.daemon) (htag : scb.tag = true)
    (hsealed : scb.isSealed = true)
    (hqueue : ((recorded (opened c pid) pid).daemon.procTable pid).callbacks = ccb :: rest) :
    c.cocallbackRegister pid scb flags newBase =
      if ccb.func ≠ (recorded (opened c pid) pid).daemon.providerDeath then .error .aborts
      else
        let t := recorded (opened c pid) pid
        .ok (withFunc t ⟨scb, pid, flags⟩ newBase ccb rest,
          .func ⟨baseAfter t.daemon newBase, t.daemon.funcs.length⟩) := by
  have hfree : ((recorded (opened c pid) pid).daemon.procTable pid).inProgress = 0 := by
    rw [recorded_daemon]
    exact monitor_inProgress h pid
  simp only [CountedDaemon.cocallbackRegister, htag, hsealed, countedMonitor_eq h]
  generalize recorded (opened c pid) pid = t at *
  simp only [Bool.true_eq_false, or_self, if_false, bind, Except.bind,
    CountedDaemon.registerCocallbackFunc, registerCocallbackFunc_eq htag, Option.map_some]
  -- The new entry does not touch the events.
  have hadd (u : Daemon) (hu : u.procTable = t.daemon.procTable) (ptr : Ptr) :
      u.addFuncToProvider pid ptr = if ccb.func ≠ u.providerDeath then .error .aborts
        else .ok (u.setEvent pid { u.procTable pid with callbacks := linked u ccb ptr :: rest }) :=
    addFuncToProvider_eq (hu ▸ hfree) (hu ▸ hqueue)
  rw [hadd _ (by rfl)]
  by_cases hfirst : ccb.func = t.daemon.providerDeath
  · simp only [hfirst, ne_eq, not_true, if_false]
    rfl
  · simp only [hfirst, ne_eq, not_false_iff, if_true]

theorem countedInstall_eq {p : Nat} {funcTag : Bool} {func : Ptr} {args : CocallbackArgs}
    (hfree : (c.daemon.procTable p).inProgress = 0) :
    c.installCocallback true (.proc p) funcTag func args =
      if (c.daemon.procTable p).cePid ≠ p ∨ p = 0 ∨ funcTag = false then .error .faults
      else .ok (queued c p func args, .done) := by
  simp only [CountedDaemon.installCocallback, Daemon.validateCoevent, Bool.true_eq_false,
    if_false, lock_eq hfree, bind, Except.bind, CountedDaemon.queueCocallback,
    Daemon.queueCocallback, Coevent.addCocallback]
  rw [if_neg (by decide)]
  simp only
  split
  · rfl
  · simp [Coevent.unlockCoevent, queued, enqueue, Daemon.setEvent, hfree]

/-- What a request that is answered does. -/
theorem handle_count {r : Request} {reply : Reply} (h : Idle c.daemon)
    (halive : c.daemon.alive pid = true) (hr : c.handle pid r = .ok (c', reply)) :
    CountChange c (.request pid r) c' := by
  have hkept (hquiet : ∀ p, ¬Queues c.daemon p (.request pid r)) :
      CountChange c (.request pid r) c := .kept _ _ _ _ hquiet
  cases r with
  | colisten event subject =>
    simp only [CountedDaemon.handle, CountedDaemon.addEventListener, countedAllocate_eq h] at hr
    split at hr
    · split at hr
      · cases hr
        exact hkept fun p => id
      · cases hr
        exact .listened pid _ subject halive
    · cases hr
      exact hkept fun p => id
  | ccbRegister scb flags newBase =>
    by_cases hinvalid : scb.tag = false ∨ scb.isSealed = false
    · simp only [CountedDaemon.handle, CountedDaemon.cocallbackRegister, if_pos hinvalid] at hr
      cases hr
      refine hkept fun p hqueues => ?_
      rcases hinvalid with htag | hsealed
      · simp [Queues, htag] at hqueues
      · simp [Queues, hsealed] at hqueues
    · simp only [not_or, Bool.not_eq_false] at hinvalid
      obtain ⟨htag, hsealed⟩ := hinvalid
      obtain ⟨ccb, rest, hqueue⟩ := withRecord_queue (openEvent c.daemon pid) pid
      rw [← opened_daemon, ← recorded_daemon] at hqueue
      simp only [CountedDaemon.handle, countedRegister_eq h htag hsealed hqueue] at hr
      split at hr
      · cases hr
      · cases hr
        exact .registered pid scb flags newBase ccb rest halive htag hsealed hqueue
  | ccbInstall tag coevent funcTag func len data =>
    cases hvalid : Daemon.validateCoevent tag coevent with
    | none =>
      simp only [CountedDaemon.handle, CountedDaemon.installCocallback, hvalid] at hr
      cases hr
      exact hkept fun p hqueues => by simp [Queues, hvalid] at hqueues
    | some p =>
      obtain ⟨rfl, rfl⟩ := validateCoevent_eq hvalid
      rcases h p with hfree | hfinished
      · simp only [CountedDaemon.handle, countedInstall_eq hfree] at hr
        split at hr
        · cases hr
        · rename_i hset
          simp only [not_or, not_not, Bool.not_eq_false] at hset
          obtain ⟨hpid, -, rfl⟩ := hset
          cases hr
          exact .installed pid p func len data hpid
      · -- The lock of a finished event is never free again.
        simp [CountedDaemon.handle, CountedDaemon.installCocallback, hvalid, Coevent.lockCoevent,
          hfinished, bind, Except.bind] at hr

/-- What a step does. -/
theorem step_count {a : Action} (h : Idle c.daemon) (hs : c.step a = some c')
    (hserving : c'.daemon.fate = .serving) : CountChange c a c' := by
  have hbefore := countedServing_of_step hs
  unfold CountedDaemon.step at hs
  rw [if_neg (not_not.mpr hbefore)] at hs
  cases a with
  | request pid r =>
    simp only at hs
    split at hs
    · rename_i hpid
      cases hr : c.handle pid r with
      | ok q =>
        simp only [hr, Option.some.injEq] at hs
        subst hs
        exact handle_count h hpid.1 hr
      | error stop =>
        cases stop with
        | spins => simp [hr] at hs
        | faults =>
          simp only [hr, Option.some.injEq] at hs
          subst hs
          cases hserving
        | aborts =>
          simp only [hr, Option.some.injEq] at hs
          subst hs
          cases hserving
    · cases hs
  | store ptr func chain =>
    simp only [Daemon.step, if_neg (not_not.mpr hbefore), Option.map_some,
      Option.some.injEq] at hs
    subst hs
    exact .kept _ _ _ _ fun p => id
  | die pid =>
    simp only [Daemon.step, if_neg (not_not.mpr hbefore)] at hs
    split at hs
    · cases hs
      exact .kept _ _ _ _ fun p => id
    · cases hs
  | report pid =>
    simp only at hs
    split at hs
    · rename_i hpid
      cases hs
      exact .reported pid hpid.1
    · cases hs

end Requests

/-! ### The trigger -/

/-- One callback of the trigger has returned and is freed. -/
def countedOne (c : CountedDaemon) (pid : Nat) (ccb : Cocallback) (rest : List Cocallback) :
    CountedDaemon where
  daemon := handledOne c.daemon pid ccb rest
  ncallbacks := Function.update c.ncallbacks pid (c.ncallbacks pid - 1)
  consumers := Function.update c.consumers ccb.func (c.consumers ccb.func - 1)

/-- The rule for the loop of a trigger that does not end coeventd. -/
theorem countedLoop_rule {pid : Nat} {P : List Cocallback → CountedDaemon → Prop}
    {Q : CountedDaemon → Prop}
    (hnext : ∀ c ccb rest, P (ccb :: rest) c → P rest (countedOne c pid ccb rest))
    (hend : ∀ c, P [] c → Q { c with daemon := endTrigger c.daemon pid })
    {c : CountedDaemon} {queue : List Cocallback} (h : P queue c)
    (hserving : (c.triggerLoop pid queue).daemon.fate = .serving) :
    Q (c.triggerLoop pid queue) := by
  induction queue generalizing c with
  | nil => exact hend c h
  | cons ccb rest ih =>
    by_cases hfailed : (c.daemon.executeCocallback ccb).2 = .failed
    · -- `err` ends coeventd.
      simp only [CountedDaemon.triggerLoop, if_pos hfailed] at hserving
      cases hserving
    · have hone : c.triggerLoop pid (ccb :: rest) =
          (countedOne c pid ccb rest).triggerLoop pid rest := by
        simp only [CountedDaemon.triggerLoop, if_neg hfailed]
        rfl
      rw [hone] at hserving ⊢
      exact ih (hnext c ccb rest h) hserving

/-- The rule for a trigger that does not end coeventd. -/
theorem countedTrigger_rule {pid : Nat} {P : List Cocallback → CountedDaemon → Prop}
    {Q : CountedDaemon → Prop}
    (hnext : ∀ c ccb rest, P (ccb :: rest) c → P rest (countedOne c pid ccb rest))
    (hend : ∀ c, P [] c → Q { c with daemon := endTrigger c.daemon pid })
    {c : CountedDaemon}
    (h : P (c.daemon.procTable pid).callbacks { c with daemon := startTrigger c.daemon pid })
    (hserving : (c.triggerCocallbacks pid).daemon.fate = .serving) :
    Q (c.triggerCocallbacks pid) :=
  countedLoop_rule hnext hend h hserving

end Comsg.Proofs.Coeventd
