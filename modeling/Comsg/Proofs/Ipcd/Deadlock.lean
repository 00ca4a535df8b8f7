import Comsg.Proofs.Ipcd.ClosedBit
import Comsg.Proofs.Ipcd.Notifications
import Comsg.Proofs.Ipcd.Progress

/-!
# `Comsg.Proofs.Ipcd.Deadlock`: who waits for whom

A poller waits for `COPORT_OPEN` while it holds the copoll mutex. The other loops give up on
a closing port, and this one does not. So a poller that meets a closing port waits for good,
and everybody who needs the mutex waits with it (`poll_closing_deadlocks`).

`deadlock_free` lists what has to be avoided (`NoCyclicWait`). In every run without such a
step, a request in progress means that some thread can move on, or that a notifier was
signalled and is about to wake up.

* A poller waits only for ports that are not closing, and whose `COPORT_DONE` is not left for
  a notifier to turn into `COPORT_OPEN`. The notifier would need the mutex.
* No port is closed, or left to a notifier, while a poller waits for it.
* No port becomes `COPORT_CLOSED` with a listener and a notification outstanding. The notifier
  would wait for it with the mutex.
-/

set_option autoImplicit false

namespace Comsg.Proofs.Ipcd

open Comsg.Lib
open Comsg.Ipcd

/-! ### Deadlock -/

/-- The program counter is that of a request in progress, and not asleep in `copoll_wait`. -/
def inProgress : Pc → Bool
  | .idle | .answered _ | .asleep _ => false
  | _ => true

/-- Some thread can move on, or a notifier was signalled. -/
def CanAdvance (s : Sys) : Prop :=
  (∃ x, Advances s x) ∨ ∃ n, s.pc (.notifier n) = .napping ∧ s.signalled n = true

/-- A request in progress means that somebody can move. -/
def DeadlockFree (s : Sys) : Prop :=
  s.aborted = none → (∃ t, inProgress (s.pc (.client t)) = true) → CanAdvance s

/-- A poller waits for port `p`. -/
def WaitsFor (s : Sys) (p : Nat) : Prop :=
  ∃ x args i target, target.coport = p ∧
    (s.pc x = .registerAcquire args i target ∨ s.pc x = .unregisterAcquire args i target)

/-- The thread is about to wait for the port of `target`, to register or to unregister. -/
def BeginsToWait (s : Sys) (x : Party) (target : PollTarget) : Prop :=
  ∃ args i, args.coports[i]? = some target ∧ (s.pc x = .register args i ∨
    (s.pc x = .unregister args i ∧ (s.listener args.poller i).removed = false))

/-- Port `p` is in `COPORT_DONE`, and it is for a notifier to open it. -/
def LeftToNotifier (s : Sys) (p : Nat) : Prop :=
  (s.port p).status = .coportDone ∧ (s.port p).listeners ≠ [] ∧ OutstandingFor s p

/-- The step makes nobody wait for a thread that waits for it. -/
structure NoCyclicWait (s : Sys) (a : Act) : Prop where
  /-- A poller begins to wait for a port that is neither closing nor left to a notifier. -/
  wait : ∀ target, BeginsToWait s a.party target →
    ¬Closing (viewOf target.coport s) ∧ ¬LeftToNotifier s target.coport
  /-- A port is closed when no poller waits for it. -/
  close : ∀ p, s.pc a.party = .closeLocked p → ¬WaitsFor s p
  /-- A port is left to a notifier when it is not closed and no poller waits for it. -/
  commit : ∀ p event ans, s.pc a.party = .notifyTest p event ans → (s.port p).announces event →
    (s.port p).status ≠ .coportClosed ∧ ((s.port p).status = .coportDone → ¬WaitsFor s p)
  /-- A port becomes `COPORT_CLOSED` when nobody listens or no notification is outstanding. -/
  closed : ∀ p after, s.pc a.party = .release p .coportClosed after →
    (s.port p).listeners = [] ∨ ¬OutstandingFor s p

/-! ### `COPORT_DONE` does not stay -/

/-- The thread is still to come to the end of its `copoll_notify`, and has not committed. -/
def onTheWay (r : Role) : Prop := announcement r ≠ none ∨ r = .opening

/-- Some thread can still open the port. -/
def InFlight (v : PortView) : Prop := ∃ x, onTheWay (v.role x)

/-- `COPORT_READY` is not used, and `COPORT_DONE` is stored only before a `copoll_notify`. -/
structure StoresOk (v : PortView) : Prop where
  ready : v.port.status ≠ .coportReady
  stores : ∀ x status follow, v.role x = .storing status follow →
    status ≠ .coportReady ∧ (status = .coportDone → follow ≠ .done)

/-- A port in `COPORT_DONE` is going to be opened, or it is left to a notifier. -/
def DoneOk (v : PortView) : Prop :=
  v.port.status = .coportDone → InFlight v ∨ (v.port.listeners ≠ [] ∧ Outstanding v)

section Done
variable {v v' : PortView} {x : Party} {r r' : Role} {port port' : Coport}

theorem StoresOk.update (hst : StoresOk v) (hrole : v'.role = Function.update v.role x r)
    (hport : v'.port.status ≠ .coportReady)
    (hr : ∀ status follow, r = .storing status follow →
      status ≠ .coportReady ∧ (status = .coportDone → follow ≠ .done)) : StoresOk v' := by
  refine ⟨hport, fun y status follow hy => ?_⟩
  rw [hrole] at hy
  by_cases hyx : y = x
  · subst hyx
    rw [Function.update_self] at hy
    exact hr status follow hy
  · rw [Function.update_of_ne hyx] at hy
    exact hst.stores y status follow hy

/-- What the work of a request leaves to be stored. -/
theorem PortWorks.stores (h : PortWorks port r r' port') (hf : FoundOk r) (status : CoportStatus)
    (follow : Follow) (hr : r' = .storing status follow) :
    status ≠ .coportReady ∧ (status = .coportDone → follow ≠ .done) := by
  cases h with
  | sendAccepted msg h =>
    cases hr
    exact ⟨nofun, fun _ => nofun⟩
  | recvTaken found closing h =>
    cases hr
    obtain rfl | ⟨rfl, -⟩ := hf <;> exact ⟨nofun, nofun⟩
  | _ =>
    cases hr
    exact ⟨nofun, nofun⟩

theorem PortMoves.ne_storing (h : PortMoves port r r') (status : CoportStatus) (follow : Follow) :
    r' ≠ .storing status follow := by
  cases h <;> nofun

theorem Enters.ne_storing {found : CoportStatus} (h : Enters found r) (status : CoportStatus)
    (follow : Follow) : r ≠ .storing status follow := by
  cases h <;> nofun

theorem storesOk_step (hs : Sound v) (hst : StoresOk v) (h : PortStep v x v') : StoresOk v' := by
  cases h with
  | move r h =>
    exact hst.update rfl hst.ready fun status follow hr => absurd hr (h.ne_storing status follow)
  | acquire lock r hlock hx h =>
    refine hst.update rfl ?_ fun status follow hr => absurd hr (h.ne_storing status follow)
    obtain rfl | rfl := hlock <;> nofun
  | work r port h =>
    exact hst.update rfl (h.carried_eq.1 ▸ hst.ready) (h.stores (hs.found x))
  | store status follow h =>
    exact hst.update rfl (hst.stores x status follow h).1 (by cases follow <;> nofun)
  | read index h => exact hst.update rfl hst.ready nofun
  | openDone h hdone => exact hst.update rfl nofun nofun
  | put h => exact hst.update rfl hst.ready nofun
  | skip k hx hq hl => exact ⟨hst.ready, hst.stores⟩
  | deliver found k h hq hm =>
    refine hst.update rfl hst.ready ?_
    rintro status follow ⟨⟩
    unfold Coport.deliverStatus
    split <;> exact ⟨nofun, nofun⟩

/-- A thread that stays on the way keeps the port in flight. -/
theorem InFlight.update (h : InFlight v) (hrole : v'.role = Function.update v.role x r)
    (hx : onTheWay (v.role x) → onTheWay r) : InFlight v' := by
  obtain ⟨y, hy⟩ := h
  by_cases hyx : y = x
  · subst hyx
    exact ⟨y, by simpa [hrole] using hx hy⟩
  · exact ⟨y, by rwa [hrole, Function.update_of_ne hyx]⟩

/-- Nobody holds a port whose status does not mark it as locked. -/
theorem Sound.not_holder (hs : Sound v) {status : CoportStatus} (hst : v.port.status = status)
    (hfree : ¬Taken status) : carried (v.role x) = none := by
  by_contra hne
  exact hfree (hst ▸ hs.lock.taken_iff.mpr ⟨x, hne⟩)

/-- A port in `COPORT_DONE` that somebody is going to open stays so, until that thread decides
to leave the port to a notifier. -/
theorem inFlight_step (hs : Sound v) (hst : StoresOk v)
    (hfl : v.port.status = .coportDone → InFlight v) (h : PortStep v x v')
    (hdone : v'.port.status = .coportDone) :
    InFlight v' ∨ ∃ event, v.role x = .announcing event ∧ v.port.announces event ∧
      v.port.status = .coportDone ∧
      v' = { v with role := Function.update v.role x .committed } := by
  cases h with
  | move r h =>
    have hold := hfl hdone
    generalize hrole : v.role x = rx at h
    cases h with
    | wait => exact .inl (hold.update rfl (by simp [hrole, onTheWay, announcement]))
    | commit event h => exact .inr ⟨event, rfl, h, hdone, rfl⟩
    | decline event h => exact .inl ⟨x, .inr (Function.update_self _ _ _)⟩
    | leaveStatus h => exact absurd hdone h
  | acquire lock r hlock hx h =>
    have hlock' : lock = .coportDone := hdone
    simp [hlock', Taken] at hlock
  | work r port h =>
    -- The port would be locked.
    obtain ⟨hsame, found, status, hfound, -⟩ := h.carried_eq
    rw [hs.not_holder (hsame ▸ hdone) (by simp [Taken])] at hfound
    cases hfound
  | store status follow h =>
    -- Only an accepted send stores `COPORT_DONE`, and it goes on to its `copoll_notify`.
    have hfollow := (hst.stores x status follow h).2 hdone
    refine .inl ⟨x, .inl ?_⟩
    simp only [Function.update_self]
    cases follow with
    | done => exact absurd rfl hfollow
    | _ => simp [released, announcement]
  | read index h => exact .inl ((hfl hdone).update rfl fun _ => .inl (by simp [announcement]))
  | openDone h hst => cases hdone
  | put h => exact .inl ((hfl hdone).update rfl (by simp [h, onTheWay, announcement]))
  | skip k hx hq hl => exact .inl (hfl hdone)
  | deliver found k h hq hm =>
    have hfree := hs.not_holder (x := x) hdone (by simp [Taken])
    rw [h] at hfree
    cases hfree

/-- A port left to a notifier stays so while it is in `COPORT_DONE`. -/
theorem left_step (hs : Sound v) (hdone : v.port.status = .coportDone)
    (hl : v.port.listeners ≠ []) (ho : Outstanding v) (h : PortStep v x v')
    (hdone' : v'.port.status = .coportDone) : v'.port.listeners ≠ [] ∧ Outstanding v' := by
  have hfree := hs.not_holder (x := x) hdone (by simp [Taken])
  cases h with
  | move r h => exact ⟨hl, ho.update rfl (by intro hx; rw [hx] at h; cases h) le_rfl⟩
  | acquire lock r hlock hx h =>
    have hlock' : lock = .coportDone := hdone'
    simp [hlock', Taken] at hlock
  | work r port h =>
    obtain ⟨-, found, status, hfound, -⟩ := h.carried_eq
    rw [hfree] at hfound
    cases hfound
  | store status follow h =>
    rw [h] at hfree
    cases hfree
  | read index h => exact ⟨hl, ho.update rfl (by simp [h]) le_rfl⟩
  | openDone h hst => cases hdone'
  | put h => exact ⟨hl, .inr (Nat.succ_pos _)⟩
  -- A port that was left to a notifier has listeners, so its event is not skipped.
  | skip k hx hq hempty => exact absurd hempty hl
  | deliver found k h hq hm =>
    rw [h] at hfree
    cases hfree

theorem doneOk_step (hs : Sound v) (hst : StoresOk v) (hd : DoneOk v) (h : PortStep v x v') :
    DoneOk v' := by
  intro hdone'
  by_cases hleft : v.port.status = .coportDone ∧ v.port.listeners ≠ [] ∧ Outstanding v
  · obtain ⟨hdone, hl, ho⟩ := hleft
    exact .inr (left_step hs hdone hl ho h hdone')
  · -- Otherwise the thread that is on its way keeps the port in flight, or commits it.
    have hfl : v.port.status = .coportDone → InFlight v := fun hdone =>
      (hd hdone).resolve_right fun hlo => hleft ⟨hdone, hlo⟩
    obtain hfl' | ⟨event, hrole, hann, -, rfl⟩ := inFlight_step hs hst hfl h hdone'
    · exact .inl hfl'
    · exact .inr ⟨hann.1, .inl ⟨x, Function.update_self _ _ _⟩⟩

end Done

/-! ### Nobody waits in a cycle -/

/-- A poller waits for the port. -/
def Waited (v : PortView) : Prop := ∃ x, v.role x = .waiting

/-- What the step can rely on, with the restriction as one port sees it. -/
structure AcyclicStep (v : PortView) (x : Party) (v' : PortView) : Prop where
  sound : Sound v
  stores : StoresOk v
  done : DoneOk v
  wait : v.role x = .away → v'.role x = .waiting →
    ¬Closing v ∧ ¬(v.port.status = .coportDone ∧ v.port.listeners ≠ [] ∧ Outstanding v)
  close : v.role x = .closing → ¬Waited v
  commit : ∀ event, v.role x = .announcing event → v.port.announces event →
    v.port.status ≠ .coportClosed ∧ (v.port.status = .coportDone → ¬Waited v)
  closed : ∀ follow, v.role x = .storing .coportClosed follow →
    v.port.listeners = [] ∨ ¬Outstanding v

/-- No notifier is going to wait for a closed port. A poller waits for a port that is not
closing and that somebody else is going to open. -/
structure WaitOk (v : PortView) : Prop where
  closed : v.port.status = .coportClosed → v.port.listeners = [] ∨ ¬Outstanding v
  waited : Waited v → ¬Closing v ∧ (v.port.status = .coportDone → InFlight v)

section Wait
variable {v v' : PortView} {x : Party} {r r' : Role} {port port' : Coport}

theorem Waited.of_update (h : Waited v') (hrole : v'.role = Function.update v.role x r)
    (hr : r ≠ .waiting) : Waited v := by
  obtain ⟨y, hy⟩ := h
  rw [hrole] at hy
  by_cases hyx : y = x
  · subst hyx
    rw [Function.update_self] at hy
    exact absurd hy hr
  · rw [Function.update_of_ne hyx] at hy
    exact ⟨y, hy⟩

theorem PortWorks.ne_waiting (h : PortWorks port r r' port') : r' ≠ .waiting := by
  cases h <;> nofun

theorem Enters.ne_waiting {found : CoportStatus} (h : Enters found r) : r ≠ .waiting := by
  cases h <;> nofun

/-- A port that is waited for was so before, or somebody has just begun to wait. -/
theorem waited_of_step (h : PortStep v x v') (hw : Waited v') :
    Waited v ∨ (v.role x = .away ∧ v' = { v with role := Function.update v.role x .waiting }) := by
  cases h with
  | move r h =>
    generalize hrole : v.role x = rx at h
    cases h with
    | wait => exact .inr ⟨rfl, rfl⟩
    | _ => exact .inl (hw.of_update rfl nofun)
  | acquire lock r hlock hx h => exact .inl (hw.of_update rfl h.ne_waiting)
  | work r port h => exact .inl (hw.of_update rfl h.ne_waiting)
  | store status follow h => exact .inl (hw.of_update rfl (by cases follow <;> nofun))
  | skip k hx hq hl => exact .inl hw
  | _ => exact .inl (hw.of_update rfl nofun)

theorem waited_step (hm : AcyclicStep v x v') (hok : WaitOk v) (h : PortStep v x v')
    (hw' : Waited v') : ¬Closing v' ∧ (v'.port.status = .coportDone → InFlight v') := by
  obtain hw | ⟨haway, rfl⟩ := waited_of_step h hw'
  · -- Somebody waits already: the step must not close the port or leave it to a notifier.
    obtain ⟨hopen, hfl⟩ := hok.waited hw
    refine ⟨fun hc => ?_, fun hdone => ?_⟩
    · obtain hold | hx := closing_of_step hm.sound h hc
      · exact hopen hold
      · exact hm.close hx hw
    · obtain hfl' | ⟨event, hrole, hann, hold, -⟩ := inFlight_step hm.sound hm.stores hfl h hdone
      · exact hfl'
      · exact absurd hw ((hm.commit event hrole hann).2 hold)
  · -- Somebody begins to wait: the port must not be closing or left to a notifier.
    obtain ⟨hopen, hleft⟩ := hm.wait haway (Function.update_self _ _ _)
    refine ⟨fun hc => ?_, fun hdone => ?_⟩
    · obtain hold | hx := closing_of_step hm.sound h hc
      · exact hopen hold
      · simp [haway] at hx
    · obtain hfl | hlo := hm.done hdone
      · exact hfl.update rfl (by simp [haway, onTheWay, announcement])
      · exact absurd ⟨hdone, hlo⟩ hleft

theorem closedQuiet_step (hm : AcyclicStep v x v') (hok : WaitOk v) (h : PortStep v x v')
    (hcl : v'.port.status = .coportClosed) : v'.port.listeners = [] ∨ ¬Outstanding v' := by
  by_contra hno
  obtain ⟨hl, ho⟩ : v'.port.listeners ≠ [] ∧ Outstanding v' := by simpa [not_or] using hno
  have hquiet : v.port.status = .coportClosed → v.port.listeners ≠ [] → ¬Outstanding v :=
    fun hcl hl => (hok.closed hcl).resolve_left hl
  cases h with
  | move r h =>
    generalize hrole : v.role x = rx at h
    cases h with
    -- The only step of a thread by which a notification becomes outstanding.
    | commit event h => exact (hm.commit event hrole h).1 hcl
    | _ => exact hquiet hcl hl (ho.of_update rfl (by simp) le_rfl)
  | acquire lock r hlock hx h =>
    have hlock' : lock = .coportClosed := hcl
    simp [hlock', Taken] at hlock
  | work r port h =>
    -- The port would be locked.
    obtain ⟨hsame, found, status, hfound, -⟩ := h.carried_eq
    rw [hm.sound.not_holder (hsame ▸ hcl) (by simp [Taken])] at hfound
    cases hfound
  | store status follow h =>
    have hst : status = .coportClosed := hcl
    have hold := ho.of_update (v := v) rfl (released_ne_committed follow) le_rfl
    exact (hm.closed follow (hst ▸ h)).elim hl fun hnot => hnot hold
  | read index h => exact hquiet hcl hl (ho.of_update rfl (by simp) le_rfl)
  | openDone h hst => cases hcl
  | put h => exact hquiet hcl hl (.inl ⟨x, h⟩)
  | skip k hx hq hempty => exact hl hempty
  | deliver found k h hq hmeets =>
    have hfree := hm.sound.not_holder (x := x) hcl (by simp [Taken])
    rw [h] at hfree
    cases hfree

end Wait

/-! ### Runs -/

section System
variable {ok : Sys → Act → Prop} {s s' : Sys} {x : Party} {c : Pc} {p : Nat}

theorem storesOk_reach (h : Reach sysStep ok initSys s) (p : Nat) : StoresOk (viewOf p s) := by
  refine view_invariant (fun v _ => Sound v) p ?_ (fun s a hr _ => sound_reach hr p) ?_ h
  · rw [viewOf_init]
    exact ⟨nofun, nofun⟩
  · exact fun _ _ _ hst hs hstep => storesOk_step hs hst hstep

theorem doneOk_reach (h : Reach sysStep ok initSys s) (p : Nat) : DoneOk (viewOf p s) := by
  refine view_invariant (fun v _ => Sound v ∧ StoresOk v) p ?_
    (fun s a hr _ => ⟨sound_reach hr p, storesOk_reach hr p⟩) ?_ h
  · rw [viewOf_init]
    exact nofun
  · exact fun _ _ _ hd hs hstep => doneOk_step hs.1 hs.2 hd hstep

theorem waited_iff : Waited (viewOf p s) ↔ WaitsFor s p := by
  constructor
  · rintro ⟨x, hx⟩
    exact ⟨x, comesFrom_of_role hx⟩
  · rintro ⟨x, args, i, target, rfl, hpc | hpc⟩
    · exact ⟨x, by simp [viewOf, hpc, role]⟩
    · exact ⟨x, by simp [viewOf, hpc, role]⟩

/-- The program counter is that of a poller that waits. -/
def waits : Pc → Bool
  | .registerAcquire _ _ _ | .unregisterAcquire _ _ _ => true
  | _ => false

theorem waits_of_role (h : role p c = .waiting) : waits c = true := by
  obtain ⟨args, i, target, -, rfl | rfl⟩ := comesFrom_of_role h <;> rfl

theorem Acquires.waits_eq {found lock : CoportStatus} {c' : Pc} (h : Acquires p found lock c c') :
    waits c' = false := by
  cases h <;> rfl

theorem Works.waits_eq {port port' : Coport} {c' : Pc} (h : Works port p c c' port') :
    waits c' = false := by
  cases h <;> rfl

theorem waits_resume (after : After) : waits (Sys.resume p after) = false := by
  cases after <;> rfl

theorem Locks.waits_eq {c' : Pc} (h : Locks s x c c') : waits c' = false := by
  cases h <;> rfl

theorem Unlocks.waits_eq {c' : Pc} (h : Unlocks c c') : waits c' = false := by
  cases h <;> rfl

theorem Moves.beginsToWait (h : Moves s x (s.pc x) c) (hw : role p c = .waiting) :
    ∃ target, target.coport = p ∧ BeginsToWait s x target := by
  obtain ⟨args, i, target, ht, hpc⟩ := comesFrom_of_role hw
  have hwaits := waits_of_role hw
  generalize hx : s.pc x = cx at h
  cases h with
  | registerNext x args' i' target' ht' =>
    obtain ⟨rfl, rfl, rfl⟩ : args' = args ∧ i' = i ∧ target' = target := by simpa using hpc
    exact ⟨target', ht, args', i', ht', .inl hx⟩
  | unregisterNext x args' i' target' ht' hr =>
    obtain ⟨rfl, rfl, rfl⟩ : args' = args ∧ i' = i ∧ target' = target := by simpa using hpc
    exact ⟨target', ht, args', i', ht', .inr ⟨hx, hr⟩⟩
  | call t c r hc => cases r <;> cases hwaits
  | _ => cases hwaits

/-- A thread that has come to wait for port `p` was about to do so. -/
theorem beginsToWait_of_effect (h : Effect s x s') (hold : role p (s.pc x) = .away)
    (hnew : role p (s'.pc x) = .waiting) :
    ∃ target, target.coport = p ∧ BeginsToWait s x target := by
  have hwaits := waits_of_role hnew
  cases h with
  | stay | assertion =>
    have hsame : role p (s.pc x) = .waiting := hnew
    simp [hold] at hsame
  | move c h => exact h.beginsToWait (by simpa using hnew)
  | acquire p found lock c h hst => simp [h.waits_eq] at hwaits
  | work p c port h => simp [h.waits_eq] at hwaits
  | release p status after h => simp [waits_resume] at hwaits
  | lock c h hm => simp [h.waits_eq] at hwaits
  | unlock c h => simp [h.waits_eq] at hwaits
  | _ => simp [waits] at hwaits

/-- The restriction on a step of the system, seen from one port. -/
theorem acyclicStep_of_noCyclicWait {a : Act} (hr : Reach sysStep ok initSys s)
    (h : NoCyclicWait s a) (hs : sysStep s a = some s') (p : Nat) :
    AcyclicStep (viewOf p s) a.party (viewOf p s') where
  sound := sound_reach hr p
  stores := storesOk_reach hr p
  done := doneOk_reach hr p
  wait := by
    intro hold hnew
    obtain ⟨target, rfl, hbegin⟩ := beginsToWait_of_effect (sysStep_effect hs) hold hnew
    obtain ⟨hopen, hleft⟩ := h.wait target hbegin
    exact ⟨hopen, fun ⟨hdone, hl, ho⟩ => hleft ⟨hdone, hl, outstanding_iff.mp ho⟩⟩
  close := fun hrole hw => h.close p (comesFrom_of_role hrole) (waited_iff.mp hw)
  commit := by
    intro event hrole hann
    obtain ⟨ans, hpc⟩ := comesFrom_of_role hrole
    obtain ⟨hcl, hdone⟩ := h.commit p event ans hpc hann
    exact ⟨hcl, fun hst hw => hdone hst (waited_iff.mp hw)⟩
  closed := by
    intro follow hrole
    obtain ⟨after, hpc, -⟩ := comesFrom_of_role hrole
    exact (h.closed p after hpc).imp id fun hno ho => hno (outstanding_iff.mp ho)

theorem waitOk_reach (h : Reach sysStep NoCyclicWait initSys s) (p : Nat) :
    WaitOk (viewOf p s) := by
  refine view_invariant_step AcyclicStep p ?_
    (fun s a s' hr hok hs => acyclicStep_of_noCyclicWait hr hok hs p) ?_ h
  · rw [viewOf_init]
    refine ⟨nofun, ?_⟩
    rintro ⟨y, hy⟩
    cases hy
  · exact fun _ _ _ hok hm hstep => ⟨closedQuiet_step hm hok hstep, waited_step hm hok hstep⟩

/-! ### Somebody is ready -/

/-- A holder of a port is ready, and so is a thread before the end of its `copoll_notify`. -/
theorem ready_of_role (h : carried (role p c) ≠ none ∨ onTheWay (role p c)) : Ready s c := by
  generalize hr : role p c = r at h
  have hfrom := comesFrom_of_role hr
  cases r with
  | sending | reading | announcing | opening =>
    obtain ⟨_, rfl⟩ := hfrom
    trivial
  | receiving | closing =>
    obtain rfl := hfrom
    trivial
  | registering | unregistering =>
    obtain ⟨_, _, _, rfl, -⟩ := hfrom
    trivial
  | delivering =>
    obtain ⟨_, _, rfl⟩ := hfrom
    trivial
  | storing =>
    obtain ⟨_, rfl, -⟩ := hfrom
    trivial
  | away | waiting | committed => simp [carried, onTheWay, announcement] at h

section Stuck
variable (hstuck : ∀ y, ¬Ready s (s.pc y))
include hstuck

theorem not_taken_of_stuck (h : Reach sysStep ok initSys s) : ¬Taken (s.port p).status := by
  intro htaken
  obtain ⟨y, hy⟩ := (sound_reach h p).lock.taken_iff.mp htaken
  exact hstuck y (ready_of_role (.inl hy))

theorem not_inFlight_of_stuck : ¬InFlight (viewOf p s) := by
  rintro ⟨y, hy⟩
  exact hstuck y (ready_of_role (.inr hy))

/-- The statuses when nobody can move. -/
theorem status_of_stuck (h : Reach sysStep ok initSys s) (p : Nat) :
    Settled (s.port p).status ∨ (s.port p).status = .coportDone := by
  have htaken := not_taken_of_stuck (p := p) hstuck h
  have hready : (s.port p).status ≠ .coportReady := (storesOk_reach h p).ready
  unfold Taken at htaken
  unfold Settled
  cases hst : (s.port p).status <;> simp_all

/-- A port that is then in `COPORT_DONE` is left to a notifier. -/
theorem outstanding_of_stuck (h : Reach sysStep ok initSys s)
    (hdone : (s.port p).status = .coportDone) : OutstandingFor s p := by
  obtain hfl | ⟨-, ho⟩ := doneOk_reach h p hdone
  · exact absurd hfl (not_inFlight_of_stuck hstuck)
  · exact outstanding_iff.mp ho

/-- A poller that waits has what it waits for. -/
theorem open_of_stuck (h : Reach sysStep NoCyclicWait initSys s) (hw : WaitsFor s p) :
    (s.port p).status = .coportOpen := by
  obtain ⟨hopen, hfl⟩ := (waitOk_reach h p).waited (waited_iff.mpr hw)
  obtain (hst | hst | hst) | hst := status_of_stuck hstuck h p
  · exact hst
  · exact absurd (.inl (.inl hst)) hopen
  · exact absurd (.inr (.inl hst)) hopen
  · exact absurd (hfl hst) (not_inFlight_of_stuck hstuck)

/-- So has a delivery. -/
theorem deliverable_of_stuck (h : Reach sysStep NoCyclicWait initSys s)
    (hl : (s.port p).listeners ≠ []) (ho : OutstandingFor s p) :
    Deliverable (s.port p).status := by
  obtain (hst | hst | hst) | hst := status_of_stuck hstuck h p
  · exact .inr (.inl hst)
  · exact .inr (.inr hst)
  · exact absurd (outstanding_iff.mpr ho) (((waitOk_reach h p).closed hst).resolve_left hl)
  · exact .inl hst

end Stuck

/-- Where the holder of the copoll mutex can be stuck. -/
theorem holder_cases (huse : usesMutex c = true) (hn : ¬Ready s c) :
    (∃ args i target, (c = .registerAcquire args i target ∨ c = .unregisterAcquire args i target) ∧
      (s.port target.coport).status ≠ .coportOpen) ∨
    ∃ i nEvents p status, c = .deliverAcquire i nEvents p status ∧
      ¬Deliverable (s.port p).status := by
  cases c with
  | registerAcquire args i target => exact .inl ⟨args, i, target, .inl rfl, hn⟩
  | unregisterAcquire args i target => exact .inl ⟨args, i, target, .inr rfl, hn⟩
  | deliverAcquire i nEvents p status => exact .inr ⟨i, nEvents, p, status, rfl, hn⟩
  | notifyPut | notifyUnlock | register | registerLocked | unregister | unregisterLocked
  | deliver | deliverLocked | release => exact absurd trivial hn
  | _ => cases huse

/-- Where a request can be stuck without the mutex, while the mutex is free. -/
theorem request_cases (hprog : inProgress c = true) (hkind : ofNotifier c = false)
    (huse : usesMutex c = false) (hm : s.mutex = none) (hn : ¬Ready s c) :
    ∃ p, ¬Settled (s.port p).status := by
  cases c with
  | sendAcquire p | recvAcquire p | closeAcquire p => exact ⟨p, hn⟩
  | idle | answered | asleep => cases hprog
  | napping | deliverAcquire => cases hkind
  | registerAcquire | unregisterAcquire => cases huse
  | pollLock | relock | notifyLock | notifierRelock => exact absurd hm hn
  | _ => exact absurd trivial hn

/-- A notifier that is awake and without the mutex is ready when the mutex is free. -/
theorem notifier_ready (hkind : ofNotifier c = true) (hawake : c ≠ .napping)
    (huse : usesMutex c = false) (hm : s.mutex = none) : Ready s c := by
  cases c with
  | napping => exact absurd rfl hawake
  | notifierRelock => exact hm
  | deliver | deliverAcquire | deliverLocked => cases huse
  | release => trivial
  | _ => cases hkind

section Stuck
variable (hstuck : ∀ y, ¬Ready s (s.pc y))
include hstuck

theorem mutex_of_stuck (h : Reach sysStep NoCyclicWait initSys s) : s.mutex = none := by
  cases hm : s.mutex with
  | none => rfl
  | some x =>
    have huse : usesMutex (s.pc x) = true := (mutexOk_reach h x).mpr hm
    -- A holder that cannot move is a poller or a notifier at a compare-exchange. Each has what
    -- it waits for.
    obtain ⟨args, i, target, hpc, hst⟩ | ⟨i, nEvents, p, status, hpc, hst⟩ :=
      holder_cases huse (hstuck x)
    · exact absurd (open_of_stuck hstuck h ⟨x, args, i, target, rfl, hpc⟩) hst
    · cases x with
      | client t =>
        have hkind := (kindOk_reach h).1 t
        rw [hpc] at hkind
        cases hkind
      | notifier n =>
        have hloop := (queueOk_reach h).loop n
        rw [hpc] at hloop
        have hl := listenersOk_reach h (.notifier n) p (by rw [hpc]; rfl)
        exact absurd (deliverable_of_stuck hstuck h hl (outstanding_of_entry hloop.2.2)) hst

/-- With the mutex free and no notifier signalled, no notification is outstanding. -/
theorem not_outstanding_of_stuck (h : Reach sysStep ok initSys s) (hm : s.mutex = none)
    (hnap : ∀ n, s.pc (.notifier n) = .napping → s.signalled n ≠ true) : ¬OutstandingFor s p := by
  rintro (⟨x, a, hpc | hpc⟩ | ⟨n, hn⟩)
  · exact hstuck x (by rw [hpc]; exact hm)
  · exact hstuck x (by rw [hpc]; trivial)
  · obtain ⟨j, -, he⟩ :=
      exists_entry_of_pending ((queueOk_reach h).fits n) (List.count_pos_iff.mpr hn)
    have hawake : s.pc (.notifier n) ≠ .napping := fun hpc =>
      hnap n hpc (awakeOk_reach h n j p he hpc)
    have huse := (mutexOk_reach h).not_uses (x := .notifier n) hm
    exact hstuck _ (notifier_ready ((kindOk_reach h).2 n) hawake huse hm)

end Stuck

/-- No deadlock in a run in which nobody is made to wait for a thread that waits for it. -/
theorem deadlock_free (h : Reach sysStep NoCyclicWait initSys s) : DeadlockFree s := by
  rintro hab ⟨t, ht⟩
  by_contra hno
  have hstuck : ∀ y, ¬Ready s (s.pc y) := fun y hr =>
    hno (.inl ⟨y, advances_of_ready (kindOk_reach h) hab hr⟩)
  have hm : s.mutex = none := mutex_of_stuck hstuck h
  have huse := (mutexOk_reach h).not_uses (x := .client t) hm
  -- The request waits for a port in `COPORT_DONE`, which is left to a notifier.
  obtain ⟨p, hp⟩ := request_cases ht ((kindOk_reach h).1 t) huse hm (hstuck _)
  have hdone : (s.port p).status = .coportDone := (status_of_stuck hstuck h p).resolve_left hp
  refine not_outstanding_of_stuck hstuck h hm (fun n hpc hsig => ?_)
    (outstanding_of_stuck hstuck h hdone)
  exact hno (.inr ⟨n, hpc, hsig⟩)

end System

/-- A test for `NoCyclicWait`: it admits the steps at which nothing is asked. -/
def acyclicCheck (s : Sys) (a : Act) : Bool :=
  match s.pc a.party with
  | .register _ _ | .unregister _ _ | .closeLocked _ | .notifyTest _ _ _ => false
  | .release _ status _ => status ≠ .coportClosed
  | _ => true

theorem noCyclicWait_of_check (s : Sys) (a : Act) (h : acyclicCheck s a = true) :
    NoCyclicWait s a := by
  unfold acyclicCheck at h
  constructor
  · rintro target ⟨args, i, -, hpc | ⟨hpc, -⟩⟩
    · rw [hpc] at h
      cases h
    · rw [hpc] at h
      cases h
  · intro p hpc
    rw [hpc] at h
    cases h
  · intro p event ans hpc
    rw [hpc] at h
    cases h
  · intro p after hpc
    rw [hpc] at h
    simp at h

/-- Client 0 sends and has taken port 0. Client 1 sends too and waits. -/
def contendedSendRun : List Act :=
  .call 0 (.cosend 0 oneByte 1) :: runs (.client 0) 1 ++
  .call 1 (.cosend 0 oneByte 1) :: runs (.client 1) 1

/-- In `contendedSendRun` somebody can move. -/
theorem deadlock_free_contended :
    ∃ s, Reach sysStep NoCyclicWait initSys s ∧ (s.port 0).status = .coportBusy ∧
      s.pc (.client 1) = .sendAcquire 0 oneByte 1 ∧ CanAdvance s := by
  obtain ⟨s, hrun, -⟩ := exists_reach_of_isSome sysStep contendedSendRun initSys rfl
  have hreach : Reach sysStep NoCyclicWait initSys s :=
    reach_of_checkAll noCyclicWait_of_check contendedSendRun initSys s rfl hrun
  have hfree := deadlock_free hreach
  cases hrun
  exact ⟨_, hreach, rfl, rfl, hfree rfl ⟨1, rfl⟩⟩

/-- Nobody can move when no step of a thread changes the state and no notifier naps. -/
theorem not_canAdvance_of_still {s : Sys} (hstill : ∀ x s', sysStep s (.run x) = some s' → s' = s)
    (hnap : ∀ n, s.pc (.notifier n) ≠ .napping) : ¬CanAdvance s := by
  have hpast : ∀ x, ¬Past s s x := fun x h => h.elim (fun h => h rfl) fun h => h rfl
  rintro (⟨x, s', hs | ⟨t, ht, hs⟩, hpast'⟩ | ⟨n, hn, -⟩)
  · obtain rfl := hstill x s' hs
    exact hpast x hpast'
  · obtain rfl := hstill x t ht
    obtain rfl := hstill x s' hs
    exact hpast x hpast'
  · exact hnap n hn

/-- Client 1 closes port 0. Then client 0 polls it for `COPOLL_IN` and comes to its
registration. All notifiers wake up in between. -/
def closingPollRun : List Act :=
  Act.call 1 (.coclose 0) :: runs (.client 1) 4 ++
  Act.call 0 (.slopoll [⟨0, copollIn⟩] (-1)) :: runs (.client 0) 4 ++
  (List.finRange nCopollNotifiers).map fun n => Act.wake (.notifier n)

/-- A poll on a closing port: the poller waits for `COPORT_OPEN` with the mutex, the notifiers
wait for the mutex, and no step of any thread changes the state. -/
theorem poll_closing_deadlocks :
    ∃ s, Reach sysStep anyAct initSys s ∧
      s.pc (.client 0) = .registerAcquire pollIn 0 ⟨0, copollIn⟩ ∧
      (s.port 0).status = .coportClosing ∧
      (∀ x s', sysStep s (.run x) = some s' ∨ sysStep s (.wake x) = some s' → s' = s) ∧
      ¬DeadlockFree s := by
  obtain ⟨s, hrun, hreach⟩ := exists_reach_of_isSome sysStep closingPollRun initSys rfl
  have hpoller : s.pc (.client 0) = .registerAcquire pollIn 0 ⟨0, copollIn⟩ :=
    eq_of_map_runFrom (fun s => s.pc (.client 0)) hrun rfl
  have hcloser : s.pc (.client 1) = .answered (.reply .closed) :=
    eq_of_map_runFrom (fun s => s.pc (.client 1)) hrun rfl
  have hstatus : (s.port 0).status = .coportClosing :=
    eq_of_map_runFrom (fun s => (s.port 0).status) hrun rfl
  have hmutex : s.mutex = some (.client 0) := eq_of_map_runFrom (fun s => s.mutex) hrun rfl
  have hab : s.aborted = none := eq_of_map_runFrom (fun s => s.aborted) hrun rfl
  have hnotifier : ∀ n, s.pc (.notifier n) = .notifierRelock := by
    intro n
    refine eq_of_map_runFrom (fun s => s.pc (.notifier n)) hrun ?_
    revert n
    decide
  -- The other clients have not called anything.
  have hclient : ∀ t, t ≠ 0 → t ≠ 1 → s.pc (.client t) = .idle := by
    intro t h0 h1
    refine pc_of_runFrom hrun fun a ha hparty => ?_
    have hnot : ∀ a ∈ closingPollRun, a.party ≠ .client 0 → a.party ≠ .client 1 →
        a.party ∉ (List.finRange nCopollNotifiers).map .notifier → False := by decide
    exact hnot a ha (by simpa [hparty]) (by simpa [hparty]) (by simp [hparty])
  have hstill : ∀ x s', sysStep s (.run x) = some s' ∨ sysStep s (.wake x) = some s' → s' = s := by
    intro x s' hs
    simp only [sysStep, hab, Option.isSome_none, Bool.false_eq_true, if_false] at hs
    cases x with
    | notifier n =>
      -- The mutex is taken.
      simp [Sys.runStep, Sys.wakeStep, hnotifier n, Sys.notifierStep, Sys.lockMutex, hmutex] at hs
    | client t =>
      by_cases h0 : t = 0
      · -- The compare-exchange fails and the loop starts again.
        subst h0
        simp [Sys.runStep, Sys.wakeStep, hpoller, Sys.clientStep, Sys.pollAcquireStep,
          hstatus] at hs
        exact hs.symm
      by_cases h1 : t = 1
      · subst h1
        simp [Sys.runStep, Sys.wakeStep, hcloser, Sys.clientStep] at hs
      · simp [Sys.runStep, Sys.wakeStep, hclient t h0 h1, Sys.clientStep] at hs
  have hnap : ∀ n, s.pc (.notifier n) ≠ .napping := by
    intro n
    simp [hnotifier n]
  refine ⟨s, hreach, hpoller, hstatus, hstill, fun hfree => ?_⟩
  refine not_canAdvance_of_still (fun x s' hs => hstill x s' (.inl hs)) hnap (hfree hab ⟨0, ?_⟩)
  rw [hpoller]
  rfl

end Comsg.Proofs.Ipcd
