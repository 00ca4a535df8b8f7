import Comsg.Proofs.Ipcd.LostWakeup
import Comsg.Proofs.Ipcd.Reopen

/-!
# `Comsg.Proofs.Ipcd.DeliveryAssert`: the assertion of `process_coport_event`

A delivery asserts that `event` and `levent` have a bit in common. It checks this when it
runs, and `copoll_notify` decided to queue it some time before. `delivery_assertion_fails` is
a run in which the bit is gone by then: a receive whose own `copoll_notify` came late opens a
port that a send had left for the notifier, and the next receive takes the message.

`delivery_assertion_valid` gives conditions under which the assertion never fails
(`CurrentNotification`). A notification is outstanding from the test of `copoll_notify` to
its delivery.

* `copoll_notify` queues a port only for an event that is still set.
* While a notification for the port is outstanding and somebody listens, every send, receive
  or close leaves `COPOLL_IN` or `COPOLL_OUT` set and in `levent`.
* The first listener on a port with an outstanding notification finds one of its events set.
* A delivery is the only notification for its port, or it serves every listener. It clears
  from `levent` every event that is set, so a second delivery to a listener that is left would
  find nothing in common.

The invariant is that a port with a listener and an outstanding notification is `Watched`.
`watched_enqueue`, `watched_dequeue` and `watched_markClosed` show that the conditions ask
for no more than the invariant needs.
-/

set_option autoImplicit false

namespace Comsg.Proofs.Ipcd

open Comsg.Lib
open Comsg.Ipcd

/-- `COPOLL_IN` or `COPOLL_OUT` is set, and some listener waited for it. -/
def Watched (port : Coport) : Prop :=
  ∃ b, (b = copollIn ∨ b = copollOut) ∧ Meets port.event b ∧ Meets port.levent b

/-- A listener is registered on port `p`, and a notification for it is outstanding. -/
def AwaitedFor (s : Sys) (p : Nat) : Prop := OutstandingFor s p ∧ (s.port p).listeners ≠ []

/-- Somebody waited for `COPOLL_IN`, which a send sets, or for `COPOLL_OUT`, which it clears
when it fills the array. -/
def SendKeeps (port : Coport) : Prop :=
  Meets port.levent copollIn ∨ (Meets port.levent copollOut ∧ port.length + 1 < cocarrierSize)

/-- Somebody waited for `COPOLL_OUT`, which a receive sets unless it has seen the port closing,
or for `COPOLL_IN`, which it clears when it takes the last message. -/
def RecvKeeps (port : Coport) (closing : Bool) : Prop :=
  (Meets port.levent copollOut ∧ (closing = false ∨ Meets port.event copollOut)) ∨
    (Meets port.levent copollIn ∧ 1 < port.length)

/-- Somebody waited for `COPOLL_IN`, and it is set. A close clears `COPOLL_OUT`. -/
def CloseKeeps (port : Coport) : Prop := Meets port.levent copollIn ∧ Meets port.event copollIn

/-- The step does not spoil a notification. -/
structure CurrentNotification (s : Sys) (a : Act) : Prop where
  /-- The queueing branch of `copoll_notify` is taken for an event that is still set. -/
  commit : ∀ p event ans, s.pc a.party = .notifyTest p event ans → (s.port p).announces event →
    Meets (s.port p).event event
  /-- A send, a receive or a close on an awaited port leaves an event to report. -/
  send : ∀ p msg msgLen, s.pc a.party = .sendLocked p msg msgLen → ¬(s.port p).sendRefused →
    AwaitedFor s p → SendKeeps (s.port p)
  recv : ∀ p status closing, s.pc a.party = .recvLocked p status closing →
    ¬(s.port p).recvRefused → AwaitedFor s p → RecvKeeps (s.port p) closing
  close : ∀ p, s.pc a.party = .closeLocked p → AwaitedFor s p → CloseKeeps (s.port p)
  /-- The first listener of a port with an outstanding notification finds an event set. -/
  register : ∀ args i target, s.pc a.party = .registerLocked args i target →
    OutstandingFor s target.coport → (s.port target.coport).listeners = [] →
    Meets (s.port target.coport).event
      (((s.port target.coport).levent ||| target.events) &&& (copollIn ||| copollOut))
  /-- A delivery is the only notification for its port, or it serves every listener. -/
  deliver : ∀ i nEvents p status, s.pc a.party = .deliverLocked i nEvents p status →
    (¬CommittedFor s p ∧ ∑ n, (s.queue n).eventQueue.count (some p) = 1) ∨
    ∀ l ∈ (s.port p).listeners, Meets (s.port p).event l.events

/-! ### Event masks that stay watched -/

section Masks
variable {port : Coport}

theorem watched_iff : Watched port ↔
    (Meets port.event copollIn ∧ Meets port.levent copollIn) ∨
    (Meets port.event copollOut ∧ Meets port.levent copollOut) := by
  constructor
  · rintro ⟨b, rfl | rfl, h⟩
    · exact .inl h
    · exact .inr h
  · rintro (h | h)
    · exact ⟨copollIn, .inl rfl, h⟩
    · exact ⟨copollOut, .inr rfl, h⟩

theorem watched_enqueue (msg : Message) (h : ¬port.sendRefused) :
    Watched (port.enqueue msg) ↔ SendKeeps port := by
  obtain ⟨hlen, hout⟩ : port.length < cocarrierSize ∧ Meets port.event copollOut := by
    simpa [Coport.sendRefused] using h
  have hfull : port.length + 1 ≠ cocarrierSize ↔ port.length + 1 < cocarrierSize := by omega
  simp [watched_iff, SendKeeps, Coport.enqueue, hout, hfull, and_comm]

theorem watched_dequeue (closing : Bool) (h : ¬port.recvRefused) :
    Watched (port.dequeue closing) ↔ RecvKeeps port closing := by
  obtain ⟨hlen, hin⟩ : 0 < port.length ∧ Meets port.event copollIn := by
    simpa [Coport.recvRefused, Nat.pos_iff_ne_zero] using h
  have hlast : port.length - 1 ≠ 0 ↔ 1 < port.length := by omega
  rw [watched_iff, RecvKeeps, or_comm]
  simp only [Coport.dequeue, takenEvent_in, takenEvent_out, hin, hlast, and_true]
  simp only [and_comm]

theorem watched_markClosed : Watched port.markClosed ↔ CloseKeeps port := by
  simp [watched_iff, CloseKeeps, Coport.markClosed, and_comm]

theorem Watched.addListener (h : Watched port) (l : ListenEntry) :
    Watched (port.addListener l) := by
  obtain ⟨b, hb, hev, hlev⟩ := h
  exact ⟨b, hb, hev, hlev.or_left _⟩

theorem watched_addListener {l : ListenEntry}
    (h : Meets port.event ((port.levent ||| l.events) &&& (copollIn ||| copollOut))) :
    Watched (port.addListener l) := by
  rw [copollIn, copollOut, meets_and_flags] at h
  exact watched_iff.mpr h

theorem Watched.meets (h : Watched port) : Meets port.event port.levent := by
  obtain ⟨b, rfl | rfl, hev, hlev⟩ := h
  · exact hev.of_flag hlev
  · exact hev.of_flag hlev

/-- A delivery that serves every listener leaves none. -/
theorem listeners_deliver_eq_nil (h : ∀ l ∈ port.listeners, Meets port.event l.events) :
    port.deliver.listeners = [] := by
  refine List.filter_eq_nil_iff.mpr fun l hl => ?_
  simp [Coport.matched, h l hl]

end Masks

/-! ### The invariant of one port -/

/-- A listener is registered, and a notification is outstanding. -/
def Awaited (v : PortView) : Prop := Outstanding v ∧ v.port.listeners ≠ []

/-- The restriction, on the view of one port. -/
structure CurrentStep (v : PortView) (x : Party) : Prop where
  commit : ∀ event, v.role x = .announcing event → v.port.announces event →
    Meets v.port.event event
  send : ∀ msg, v.role x = .sending msg → ¬v.port.sendRefused → Awaited v → SendKeeps v.port
  recv : ∀ found closing, v.role x = .receiving found closing → ¬v.port.recvRefused →
    Awaited v → RecvKeeps v.port closing
  close : v.role x = .closing → Awaited v → CloseKeeps v.port
  register : ∀ l, v.role x = .registering l → Outstanding v → v.port.listeners = [] →
    Meets v.port.event ((v.port.levent ||| l.events) &&& (copollIn ||| copollOut))
  deliver : ∀ found, v.role x = .delivering found →
    ((∀ y, v.role y ≠ .committed) ∧ v.queued = 1) ∨
    ∀ l ∈ v.port.listeners, Meets v.port.event l.events

/-- Only `COPOLL_IN` and `COPOLL_OUT` are announced. -/
def AnnouncesFlags (v : PortView) : Prop :=
  ∀ x b, announcement (v.role x) = some b → b = copollIn ∨ b = copollOut

/-- An awaited port is watched. -/
structure NotificationOk (v : PortView) : Prop where
  flags : AnnouncesFlags v
  watched : Awaited v → Watched v.port

section Views
variable {v v' : PortView} {x : Party} {r : Role} {port : Coport}

theorem AnnouncesFlags.update (ha : AnnouncesFlags v)
    (hrole : v'.role = Function.update v.role x r)
    (hr : ∀ b, announcement r = some b →
      announcement (v.role x) = some b ∨ b = copollIn ∨ b = copollOut) :
    AnnouncesFlags v' := by
  intro y b hy
  rw [hrole] at hy
  by_cases hyx : y = x
  · subst hyx
    rw [Function.update_self] at hy
    exact (hr b hy).elim (ha y b) id
  · rw [Function.update_of_ne hyx] at hy
    exact ha y b hy

theorem PortWorks.announcesFlags {port port' : Coport} {r r' : Role} {b : CoportEventmask}
    (h : PortWorks port r r' port') (hb : announcement r' = some b) :
    b = copollIn ∨ b = copollOut := by
  cases h with
  | sendAccepted msg h =>
    cases hb
    exact .inl rfl
  | recvTaken found closing h =>
    cases hb
    exact .inr rfl
  | _ => cases hb

theorem announcesFlags_step (ha : AnnouncesFlags v) (h : PortStep v x v') : AnnouncesFlags v' := by
  cases h with
  | move r h => exact ha.update rfl fun b hb => by simp [h.announcement_eq] at hb
  | acquire lock r hlock hx h => exact ha.update rfl fun b hb => by simp [h.announcement_eq.1] at hb
  | work r port h => exact ha.update rfl fun b hb => .inr (h.announcesFlags hb)
  | store status follow h =>
    exact ha.update rfl fun b hb => .inl (by rw [h, ← announcement_released status, hb])
  | read index h => exact ha.update rfl fun b hb => .inl (by rw [h, ← hb]; rfl)
  | openDone h hst => exact ha.update rfl nofun
  | put h => exact ha.update rfl nofun
  | skip k hx hq hl => exact ha
  | deliver found k h hq hm => exact ha.update rfl nofun

/-- The work of a request leaves an awaited port watched. -/
theorem watched_work (hok : CurrentStep v x) (hw : Awaited v → Watched v.port)
    (ho : Outstanding v) (h : PortWorks v.port (v.role x) r port) (hl : port.listeners ≠ []) :
    Watched port := by
  generalize hrole : v.role x = rx at h
  cases h with
  -- A refusal only adds bits.
  | sendRefused msg h =>
    obtain ⟨b, hb, hev, hlev⟩ := hw ⟨ho, hl⟩
    exact ⟨b, hb, hev.or_left _, hlev⟩
  | sendAccepted msg h => exact (watched_enqueue msg h).mpr (hok.send msg hrole h ⟨ho, hl⟩)
  | recvRefused found closing h =>
    obtain ⟨b, hb, hev, hlev⟩ := hw ⟨ho, hl⟩
    exact ⟨b, hb, hev.or_left _, hlev⟩
  | recvTaken found closing h =>
    exact (watched_dequeue closing h).mpr (hok.recv found closing hrole h ⟨ho, hl⟩)
  | close => exact watched_markClosed.mpr (hok.close hrole ⟨ho, hl⟩)
  | register l =>
    by_cases hempty : v.port.listeners = []
    · exact watched_addListener (hok.register l hrole ho hempty)
    · exact (hw ⟨ho, hempty⟩).addListener l
  | unregister l =>
    have hne : v.port.listeners ≠ [] := by
      intro hempty
      simp [Coport.removeListener, hempty] at hl
    exact hw ⟨ho, hne⟩

theorem watched_step (hok : CurrentStep v x) (ha : AnnouncesFlags v)
    (hw : Awaited v → Watched v.port) (h : PortStep v x v') : Awaited v' → Watched v'.port := by
  rintro ⟨ho, hl⟩
  cases h with
  | move r h =>
    generalize hrole : v.role x = rx at h
    cases h with
    | commit event h =>
      -- The event is set, and `levent` has it.
      exact ⟨event, ha x event (by rw [hrole]; rfl), hok.commit event hrole h, h.2⟩
    | _ => exact hw ⟨ho.of_update rfl nofun le_rfl, hl⟩
  | acquire lock r hlock hx h => exact hw ⟨ho.of_update rfl h.announcement_eq.2 le_rfl, hl⟩
  | work r port h =>
    exact watched_work hok hw (ho.of_update (v := v) rfl h.not_committed le_rfl) h hl
  | store status follow h =>
    exact hw ⟨ho.of_update rfl (released_ne_committed follow) le_rfl, hl⟩
  | read index h => exact hw ⟨ho.of_update rfl nofun le_rfl, hl⟩
  | openDone h hst => exact hw ⟨ho.of_update rfl nofun le_rfl, hl⟩
  | put h => exact hw ⟨.inl ⟨x, h⟩, hl⟩
  | skip k hx hq hempty => exact absurd hempty hl
  | deliver found k h hq hm =>
    obtain ⟨hnone, hone⟩ | hall := hok.deliver found h
    · -- It was the only one.
      obtain ⟨y, hy⟩ | hpos := ho
      · by_cases hyx : y = x
        · subst hyx
          simp at hy
        · simp only [Function.update_of_ne hyx] at hy
          exact absurd hy (hnone y)
      · simp only at hpos
        omega
    · exact absurd (listeners_deliver_eq_nil hall) hl

end Views

/-! ### Runs -/

section System
variable {s s' : Sys} {x : Party} {p : Nat}

theorem awaited_iff : Awaited (viewOf p s) ↔ AwaitedFor s p :=
  and_congr outstanding_iff Iff.rfl

/-- The restriction on a step of the system, seen from one port. -/
theorem currentStep_of_current {a : Act} (h : CurrentNotification s a) (p : Nat) :
    CurrentStep (viewOf p s) a.party where
  commit := by
    intro event hrole hann
    obtain ⟨ans, hpc⟩ := comesFrom_of_role hrole
    exact h.commit p event ans hpc hann
  send := by
    intro msg hrole hacc ho
    obtain ⟨msgLen, hpc⟩ := comesFrom_of_role hrole
    exact h.send p msg msgLen hpc hacc (awaited_iff.mp ho)
  recv := by
    intro found closing hrole hacc ho
    exact h.recv p found closing (comesFrom_of_role hrole) hacc (awaited_iff.mp ho)
  close := fun hrole ho => h.close p (comesFrom_of_role hrole) (awaited_iff.mp ho)
  register := by
    intro l hrole ho hempty
    obtain ⟨args, i, target, hpc, rfl, rfl⟩ := comesFrom_of_role hrole
    exact h.register args i target hpc (outstanding_iff.mp ho) hempty
  deliver := by
    intro found hrole
    obtain ⟨i, nEvents, hpc⟩ := comesFrom_of_role hrole
    refine (h.deliver i nEvents p found hpc).imp (fun ⟨hnone, hone⟩ => ?_) id
    exact ⟨fun y hy => hnone (committed_iff.mp ⟨y, hy⟩), hone⟩

theorem watched_reach (h : Reach sysStep CurrentNotification initSys s) (p : Nat) :
    AwaitedFor s p → Watched (s.port p) := by
  have hinv : NotificationOk (viewOf p s) := by
    refine view_invariant CurrentStep p ?_ (fun s a _ hok => currentStep_of_current hok p) ?_ h
    · rw [viewOf_init]
      refine ⟨nofun, ?_⟩
      rintro ⟨-, hl⟩
      exact absurd rfl hl
    · intro v x v' hinv hok hstep
      exact ⟨announcesFlags_step hinv.flags hstep, watched_step hok hinv.flags hinv.watched hstep⟩
  exact fun ho => hinv.watched (awaited_iff.mpr ho)

/-- The assertion of `process_coport_event` holds whenever it is evaluated, in every run whose
steps spoil no notification. -/
theorem delivery_assertion_valid (h : Reach sysStep CurrentNotification initSys s) :
    (∀ n i nEvents p status, s.pc (.notifier n) = .deliverLocked i nEvents p status →
      Meets (s.port p).event (s.port p).levent) ∧
    s.aborted ≠ some .coportEvent := by
  have hmeets : ∀ {s}, Reach sysStep CurrentNotification initSys s → ∀ n i nEvents p status,
      s.pc (.notifier n) = .deliverLocked i nEvents p status →
      Meets (s.port p).event (s.port p).levent := by
    intro s hr n i nEvents p status hpc
    -- The port that is being delivered is still in its queue, and still has a listener.
    have hloop := (queueOk_reach hr).loop n
    rw [hpc] at hloop
    have hl := listenersOk_reach hr (.notifier n) p (by rw [hpc]; rfl)
    exact (watched_reach hr p ⟨outstanding_of_entry hloop.2.2, hl⟩).meets
  refine ⟨hmeets h, ?_⟩
  cases h with
  | init => exact nofun
  | next a hr hok hs =>
    -- A step that fails this assertion is a delivery that finds no common bit.
    obtain hsame | ⟨b, hb, hcause⟩ := effect_aborted (sysStep_effect hs)
    · rw [hsame, not_aborted_of_sysStep hs]
      exact nofun
    · rw [hb]
      intro hab
      obtain ⟨n, i, nEvents, p, status, hx, hpc, hnot⟩ := hcause (Option.some.inj hab)
      rw [hx] at hpc
      exact hnot (hmeets hr n i nEvents p status hpc)

end System

/-- A test for `CurrentNotification`: it admits sends on a port somebody waits on for
`COPOLL_IN`, and no other locked section. -/
def currentCheck (s : Sys) (a : Act) : Bool :=
  match s.pc a.party with
  | .notifyTest p event _ => decide (Meets (s.port p).event event)
  | .sendLocked p _ _ => decide (Meets (s.port p).levent copollIn)
  | .recvLocked _ _ _ | .closeLocked _ | .registerLocked _ _ _ | .deliverLocked _ _ _ _ => false
  | _ => true

theorem currentNotification_of_check (s : Sys) (a : Act) (h : currentCheck s a = true) :
    CurrentNotification s a := by
  unfold currentCheck at h
  constructor
  · intro p event ans hpc _
    rw [hpc] at h
    exact of_decide_eq_true h
  · intro p msg msgLen hpc _ _
    rw [hpc] at h
    exact .inl (of_decide_eq_true h)
  · intro p status closing hpc
    rw [hpc] at h
    cases h
  · intro p hpc
    rw [hpc] at h
    cases h
  · intro args i target hpc
    rw [hpc] at h
    cases h
  · intro i nEvents p status hpc
    rw [hpc] at h
    cases h

/-- Client 0 polls for `COPOLL_IN` and comes to the locked section of its registration. -/
def registerRun : List Act := .call 0 (.slopoll [⟨0, copollIn⟩] (-1)) :: runs (.client 0) 5

/-- After its registration client 0 sleeps, client 1 sends, and the notifier takes the port. -/
def deliveredSendRun : List Act :=
  runs (.client 0) 2 ++ .call 1 (.cosend 0 oneByte 1) :: runs (.client 1) 7 ++
  .wake notifier0 :: runs notifier0 3

/-- Nobody but client 0 has done anything in `registerRun`, so no notification is
outstanding. -/
theorem registerRun_quiet {s : Sys} (hrun : runFrom sysStep initSys registerRun = some s) :
    ¬OutstandingFor s 0 := by
  have hpc : ∀ x, s.pc x = .registerLocked pollIn 0 ⟨0, copollIn⟩ ∨ s.pc x = initSys.pc x := by
    intro x
    by_cases hx : x = .client 0
    · subst hx
      exact .inl (eq_of_map_runFrom (fun s => s.pc (.client 0)) hrun rfl)
    · right
      have hparty : ∀ a ∈ registerRun, a.party = .client 0 := by decide
      exact pc_of_runFrom hrun fun a ha hax => hx (hax ▸ hparty a ha)
  rintro (⟨x, a, hx⟩ | ⟨n, hn⟩)
  · obtain h | h := hpc x
    · simp [h] at hx
    · cases x <;> simp [h, initSys] at hx
  · have hqueue : s.queue n = initNotifiers n :=
      eq_of_map_runFrom (fun s => s.queue n) hrun rfl
    simp [hqueue, initNotifiers, CopollNotifier.init] at hn

theorem registerRun_current {s : Sys} (hrun : runFrom sysStep initSys registerRun = some s) :
    CurrentNotification s (.run (.client 0)) := by
  have hpc : s.pc (Act.run (.client 0)).party = .registerLocked pollIn 0 ⟨0, copollIn⟩ :=
    eq_of_map_runFrom (fun s => s.pc (.client 0)) hrun rfl
  constructor
  case register =>
    intro args i target h ho
    rw [hpc] at h
    cases h
    exact absurd ho (registerRun_quiet hrun)
  all_goals
    intros
    simp_all

/-- The delivery of `deliveredSendRun` passes its assertion. -/
theorem delivery_assertion_valid_send :
    ∃ s, Reach sysStep CurrentNotification initSys s ∧
      s.pc notifier0 = .deliverLocked 0 1 0 .coportDone ∧
      Meets (s.port 0).event (s.port 0).levent := by
  obtain ⟨s₁, hrun₁, -⟩ := exists_reach_of_isSome sysStep registerRun initSys rfl
  have hreach₁ : Reach sysStep CurrentNotification initSys s₁ :=
    reach_of_checkAll currentNotification_of_check registerRun initSys s₁ rfl hrun₁
  have hok := registerRun_current hrun₁
  cases hrun₁
  -- The registration is the one step that the test does not admit.
  obtain ⟨s₂, hreach₂, hcheck, hdelivers⟩ : ∃ s₂, Reach sysStep CurrentNotification initSys s₂ ∧
      checkAll sysStep currentCheck s₂ deliveredSendRun = true ∧
      (runFrom sysStep s₂ deliveredSendRun).map (fun s => s.pc notifier0) =
        some (.deliverLocked 0 1 0 .coportDone) :=
    ⟨_, .next (.run (.client 0)) hreach₁ hok rfl, rfl, rfl⟩
  obtain ⟨s, hrun, hpc⟩ := Option.map_eq_some_iff.mp hdelivers
  have hreach : Reach sysStep CurrentNotification initSys s := hreach₂.trans
    (reach_of_checkAll currentNotification_of_check deliveredSendRun s₂ s hcheck hrun)
  exact ⟨s, hreach, hpc, (delivery_assertion_valid hreach).1 _ 0 1 0 .coportDone hpc⟩

/-- After `earlyOpenRun`, client 4 takes the message that the queued event is about, and the
notifier takes the port. -/
def staleEventRun : List Act :=
  earlyOpenRun ++ .call 4 (.corecv 0) :: runs (.client 4) 3 ++ .wake notifier0 :: runs notifier0 4

/-- The event that the delivery was queued for is gone, and the assertion fails. -/
theorem delivery_assertion_fails :
    ∃ s s', Reach sysStep anyAct initSys s ∧
      s.pc notifier0 = .deliverLocked 0 1 0 .coportOpen ∧ (s.port 0).listeners ≠ [] ∧
      ¬Meets (s.port 0).event (s.port 0).levent ∧
      sysStep s (.run notifier0) = some s' ∧ s'.aborted = some .coportEvent := by
  obtain ⟨s, hrun, hreach⟩ := exists_reach_of_isSome sysStep staleEventRun initSys rfl
  cases hrun
  exact ⟨_, _, hreach, rfl, nofun, by decide, rfl, rfl⟩

end Comsg.Proofs.Ipcd
