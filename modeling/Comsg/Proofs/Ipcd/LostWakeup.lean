import Comsg.Proofs.Ipcd.Listeners
import Comsg.Proofs.Ipcd.Notifications

/-!
# `Comsg.Proofs.Ipcd.LostWakeup`: who wakes a sleeping poller

A slow poll reads the event masks first and registers its listeners later, under the copoll
mutex. Nothing looks at the masks again in between. A send that runs to its end in this gap
finds no listener and announces nothing, and the poller goes to sleep on a port that is ready
(`send_before_registration`).

`no_lost_wakeup` says that this gap is the whole story. In every run in which each
registration finds no event of its mask, as far as `COPOLL_IN` and `COPOLL_OUT` go, a sleeping
poller whose listener is still registered waits on a port without such an event, unless some
operation has yet to finish its `copoll_notify` or a delivery is pending.

The invariant is `Owed`: for each registered listener and each of the two events that is set
and that it waits for, some thread is still to announce that event, or is on its way to queue
the port, or the port is queued.
-/

set_option autoImplicit false

namespace Comsg.Proofs.Ipcd

open Comsg.Lib
open Comsg.Ipcd

/-- The step is not a registration on a port that has `COPOLL_IN` or `COPOLL_OUT` set and in
the listener's mask. -/
def UnreadyRegistration (s : Sys) (a : Act) : Prop :=
  ∀ args i target, s.pc a.party = .registerLocked args i target →
    ¬Meets (s.port target.coport).event (target.events &&& (copollIn ||| copollOut))

/-- The thread is between its update of the event mask of port `p` and the end of its
`copoll_notify`. -/
def midNotify (p : Nat) : Pc → Bool
  | .release q _ (.read _) | .release q _ (.notify _ _) => q = p
  | .recvRead q _ | .notifyTest q _ _ | .notifyLock q _ | .notifyPut q _ => q = p
  | .notifyUnlock q _ | .notifyOpen q _ => q = p
  | _ => false

/-- A poller sleeps with a registered listener. If no operation on the port is in the middle of
its notification and no delivery is pending, the port has no event of the listener's mask, as
far as `COPOLL_IN` and `COPOLL_OUT` go. -/
def NoLostWakeup (s : Sys) : Prop :=
  ∀ x args i target, s.pc x = .asleep args → args.coports[i]? = some target →
    (s.listener args.poller i).removed = false →
    (∀ y, midNotify target.coport (s.pc y) = false) →
    (∀ n, some target.coport ∉ (s.queue n).eventQueue) →
    ¬Meets (s.port target.coport).event (target.events &&& (copollIn ||| copollOut))

/-! ### The invariant of one port -/

/-- Somebody is still to act on the event `b`. -/
def Owing (v : PortView) (b : CoportEventmask) : Prop :=
  (∃ x, announcement (v.role x) = some b) ∨ (∃ x, v.role x = .committed) ∨ 0 < v.queued

/-- Every set event that a registered listener waits for is still to be acted on. -/
def Owed (v : PortView) : Prop :=
  ∀ l ∈ v.port.listeners, ∀ b, b = copollIn ∨ b = copollOut → Meets v.port.event b →
    Meets l.events b → Owing v b

section Views
variable {v v' : PortView} {x : Party} {r : Role} {b : CoportEventmask}

/-- What is owed stays owed when `x` changes its role, if its part is taken over. -/
theorem Owing.update (h : Owing v b) (hrole : v'.role = Function.update v.role x r)
    (hq : v.queued ≤ v'.queued) (hann : announcement (v.role x) = some b → Owing v' b)
    (hcom : v.role x = .committed → Owing v' b) : Owing v' b := by
  obtain ⟨y, hy⟩ | ⟨y, hy⟩ | hpos := h
  · by_cases hyx : y = x
    · exact hann (hyx ▸ hy)
    · exact .inl ⟨y, by rwa [hrole, Function.update_of_ne hyx]⟩
  · by_cases hyx : y = x
    · exact hcom (hyx ▸ hy)
    · exact .inr (.inl ⟨y, by rwa [hrole, Function.update_of_ne hyx]⟩)
  · exact .inr (.inr (by omega))

/-- The same for a thread that had nothing to announce. -/
theorem Owing.update_idle (h : Owing v b) (hrole : v'.role = Function.update v.role x r)
    (hq : v.queued ≤ v'.queued) (hann : announcement (v.role x) = none)
    (hcom : v.role x ≠ .committed) : Owing v' b :=
  h.update hrole hq (fun h => by simp [hann] at h) fun h => absurd h hcom

/-- The events of interest that a request's work sets, it announces. -/
theorem PortWorks.event_or_announces {port port' : Coport} {r r' : Role}
    (h : PortWorks port r r' port') (hb : b = copollIn ∨ b = copollOut)
    (hev : Meets port'.event b) : Meets port.event b ∨ announcement r' = some b := by
  -- A send sets `COPOLL_IN` and announces it, a receive sets `COPOLL_OUT` and announces that.
  -- No other work sets either of them.
  cases h with
  | sendRefused msg h =>
    left
    obtain rfl | rfl := hb <;> simpa [Coport.refuseSend] using hev
  | sendAccepted msg h =>
    obtain rfl | rfl := hb
    · exact .inr rfl
    · left
      simp only [Coport.enqueue, sentEvent_out] at hev
      exact hev.2
  | recvRefused found closing h =>
    left
    obtain rfl | rfl := hb <;> simpa [Coport.refuseRecv] using hev
  | recvTaken found closing h =>
    obtain rfl | rfl := hb
    · left
      simp only [Coport.dequeue, takenEvent_in] at hev
      exact hev.2
    · exact .inr rfl
  | close =>
    left
    obtain rfl | rfl := hb
    · simpa [Coport.markClosed] using hev
    · simp [Coport.markClosed] at hev
  | register l => exact .inl hev
  | unregister l => exact .inl hev

/-- The listeners after a request's work were there before, or register now. -/
theorem PortWorks.mem_listeners {port port' : Coport} {r r' : Role} {l : ListenEntry}
    (h : PortWorks port r r' port') (hl : l ∈ port'.listeners) :
    l ∈ port.listeners ∨ (r = .registering l ∧ port'.event = port.event) := by
  cases h with
  | register new =>
    obtain rfl | hl := List.mem_cons.mp hl
    · exact .inr ⟨rfl, rfl⟩
    · exact .inl hl
  | unregister old => exact .inl (List.mem_of_mem_erase hl)
  | _ => exact .inl hl

theorem owed_work {port : Coport} (ho : Owed v) (h : PortWorks v.port (v.role x) r port)
    (hready : ∀ l, v.role x = .registering l → ∀ b, b = copollIn ∨ b = copollOut →
      Meets v.port.event b → ¬Meets l.events b) :
    Owed { v with port, role := Function.update v.role x r } := by
  intro l hl b hb hev hlb
  obtain hl | ⟨hreg, hsame⟩ := h.mem_listeners hl
  · obtain hev | hann := h.event_or_announces hb hev
    · obtain ⟨hidle, hcom⟩ := h.announcement_eq
      exact (ho l hl b hb hev hlb).update_idle rfl le_rfl hidle hcom
    · exact .inl ⟨x, by simpa using hann⟩
  · -- A new listener: nothing is owed, since no event it waits for is set.
    exact absurd hlb (hready l hreg b hb (hsame ▸ hev))

/-- After a delivery no listener is left that has an event. -/
theorem owed_deliver {found : CoportStatus} {k : Nat} {f : Party → Role} :
    Owed { port := v.port.deliver, queued := k,
           role := Function.update f x (.storing (v.port.deliverStatus found) .done) } := by
  intro l hl b hb hev hlb
  obtain ⟨-, hun⟩ := List.mem_filter.mp hl
  have hnot : ¬Meets v.port.event l.events := matched_eq_false (by simpa using hun)
  obtain rfl | rfl := hb
  · exact absurd (hev.of_flag hlb) hnot
  · exact absurd (hev.of_flag hlb) hnot

theorem owed_step (hc : Covers v) (ho : Owed v)
    (hready : ∀ l, v.role x = .registering l → ∀ b, b = copollIn ∨ b = copollOut →
      Meets v.port.event b → ¬Meets l.events b)
    (h : PortStep v x v') : Owed v' := by
  cases h with
  | move r h =>
    intro l hl b hb hev hlb
    have howing := ho l hl b hb hev hlb
    generalize hrole : v.role x = rx at h
    cases h with
    | wait => exact howing.update_idle rfl le_rfl (by simp [hrole, announcement]) (by simp [hrole])
    | commit event h =>
      -- The thread now owes the put in place of the announcement.
      have hcom : Owing { v with role := Function.update v.role x .committed } b :=
        .inr (.inl ⟨x, Function.update_self _ _ _⟩)
      exact hcom
    | decline event h =>
      -- With a listener for the event, `copoll_notify` would have announced it.
      refine howing.update rfl le_rfl (fun hann => ?_) fun hcom => by simp [hrole] at hcom
      rw [hrole] at hann
      cases hann
      exact absurd (Covered.announces hc hl hlb) h
    | leaveStatus h =>
      exact howing.update_idle rfl le_rfl (by simp [hrole, announcement]) (by simp [hrole])
  | acquire lock r hlock hx h =>
    intro l hl b hb hev hlb
    refine (ho l hl b hb hev hlb).update_idle rfl le_rfl ?_ ?_
    · obtain hx | hx := hx <;> simp [hx, announcement]
    · obtain hx | hx := hx <;> simp [hx]
  | work r port h => exact owed_work ho h hready
  | store status follow h =>
    intro l hl b hb hev hlb
    refine (ho l hl b hb hev hlb).update rfl le_rfl (fun hann => ?_) fun hcom => by simp [h] at hcom
    rw [h, ← announcement_released status follow] at hann
    exact .inl ⟨x, by simpa using hann⟩
  | read index h =>
    intro l hl b hb hev hlb
    refine (ho l hl b hb hev hlb).update rfl le_rfl (fun hann => ?_) fun hcom => by simp [h] at hcom
    rw [h] at hann
    exact .inl ⟨x, by simpa [announcement] using hann⟩
  | openDone h hst =>
    intro l hl b hb hev hlb
    exact (ho l hl b hb hev hlb).update_idle rfl le_rfl (by simp [h, announcement]) (by simp [h])
  | put h =>
    -- The port is queued from here on.
    intro l hl b hb hev hlb
    exact .inr (.inr (Nat.succ_pos _))
  | skip k hx hq hl =>
    -- A port is skipped only without listeners, and then nothing is owed.
    intro l hmem
    rw [show v.port.listeners = [] from hl] at hmem
    cases hmem
  | deliver found k h hq hm => exact owed_deliver

end Views

/-! ### Runs -/

section System
variable {s : Sys} {p : Nat}

theorem owed_reach (h : Reach sysStep UnreadyRegistration initSys s) (p : Nat) :
    Owed (viewOf p s) := by
  refine view_invariant (fun v x => Covers v ∧ ∀ l, v.role x = .registering l →
    ∀ b, b = copollIn ∨ b = copollOut → Meets v.port.event b → ¬Meets l.events b) p ?_ ?_ ?_ h
  · rw [viewOf_init]
    exact nofun
  · intro s a hr hok
    refine ⟨covers_reach hr p, fun l hrole b hb hev hlb => ?_⟩
    -- The condition on the run is about the mask as a whole, `owed_step` about each event.
    obtain ⟨args, i, target, hpc, rfl, rfl⟩ := comesFrom_of_role hrole
    refine hok args i target hpc ?_
    rw [copollIn, copollOut, meets_and_flags]
    obtain rfl | rfl := hb
    · exact .inl ⟨hev, hlb⟩
    · exact .inr ⟨hev, hlb⟩
  · rintro v x v' ho ⟨hc, hready⟩ hstep
    exact owed_step hc ho hready hstep

/-- A thread that owes an announcement is in the middle of a notification. -/
theorem midNotify_of_role {c : Pc} (h : announcement (role p c) ≠ none ∨ role p c = .committed) :
    midNotify p c = true := by
  have hon : ∀ q r, (announcement (onPort p q r) ≠ none ∨ onPort p q r = .committed) → q = p := by
    intro q r h
    by_contra hq
    rw [onPort_of_ne hq] at h
    simp [announcement] at h
  cases c with
  | recvRead q index | notifyTest q event a | notifyLock q a | notifyPut q a =>
    exact decide_eq_true (hon _ _ h)
  | release q status after =>
    have hq := hon _ _ h
    cases after with
    | read | notify => exact decide_eq_true hq
    | _ =>
      subst hq
      simp [role, followOf, announcement] at h
  | sendLocked q | recvLocked q | closeLocked q | deliverLocked i nEvents q | notifyOpen q =>
    obtain rfl := hon _ _ h
    simp [role, announcement] at h
  | registerAcquire args i target | unregisterAcquire args i target
  | registerLocked args i target | unregisterLocked args i target =>
    obtain rfl := hon _ _ h
    simp [role, announcement] at h
  | _ => simp [role, announcement] at h

/-- Nothing is owed on a port with no notification under way and no pending delivery. -/
theorem not_owing {b : CoportEventmask} (hmid : ∀ y, midNotify p (s.pc y) = false)
    (hqueue : ∀ n, some p ∉ (s.queue n).eventQueue) : ¬Owing (viewOf p s) b := by
  rintro (⟨y, hy⟩ | ⟨y, hy⟩ | hpos)
  · have hy : announcement (role p (s.pc y)) = some b := hy
    have hnotify := midNotify_of_role (.inl (hy ▸ Option.some_ne_none b))
    simp [hmid y] at hnotify
  · have hnotify := midNotify_of_role (.inr hy)
    simp [hmid y] at hnotify
  · have hzero : queuedFor s p = 0 :=
      Finset.sum_eq_zero fun n _ => List.count_eq_zero_of_not_mem (hqueue n)
    exact absurd hzero (Nat.pos_iff_ne_zero.mp hpos)

/-- No wake-up is lost in a run in which no registration finds its event already set. -/
theorem no_lost_wakeup (h : Reach sysStep UnreadyRegistration initSys s) : NoLostWakeup s := by
  intro x args i target hpc ht hrem hmid hqueue hmeets
  have hreg : Registered s args args.coports.length := by
    have := pollAt_reach h x
    rwa [hpc] at this
  have hlt : i < args.coports.length := (List.getElem?_eq_some_iff.mp ht).1
  -- The listener is not marked as removed, so it is still in the list.
  have hmem : ⟨args.poller, i, target.events⟩ ∈ (s.port target.coport).listeners := by
    obtain hr | hm := hreg i target hlt ht
    · rw [hrem] at hr
      cases hr
    · exact hm
  have howed := owed_reach h target.coport _ hmem
  rw [copollIn, copollOut, meets_and_flags] at hmeets
  obtain ⟨hev, hlb⟩ | ⟨hev, hlb⟩ := hmeets
  · exact not_owing hmid hqueue (howed copollIn (.inl rfl) hev hlb)
  · exact not_owing hmid hqueue (howed copollOut (.inr rfl) hev hlb)

end System

/-- A poller asleep on an untouched port. The port has no event the poller waits for. -/
theorem no_lost_wakeup_empty :
    ∃ s, Reach sysStep UnreadyRegistration initSys s ∧ s.pc (.client 0) = .asleep pollIn ∧
      (s.listener 0 0).removed = false ∧ NoLostWakeup s := by
  have hregister : Reach sysStep UnreadyRegistration initSys _ :=
    .next (.run (.client 0)) (.next (.run (.client 0)) (.next (.run (.client 0))
      (.next (.run (.client 0)) (.next (.run (.client 0))
        (.next (.call 0 (.slopoll [⟨0, copollIn⟩] (-1))) .init nofun rfl)
        nofun rfl) nofun rfl) nofun rfl) nofun rfl) nofun rfl
  have hasleep : Reach sysStep UnreadyRegistration initSys _ :=
    .next (.run (.client 0)) (.next (.run (.client 0)) (.next (.run (.client 0)) hregister
      (by rintro _ _ _ ⟨⟩; decide) rfl) nofun rfl) nofun rfl
  exact ⟨_, hasleep, rfl, rfl, no_lost_wakeup hasleep⟩

/-- Client 0 has read the event mask of port 0. Client 1 sends and gets its answer. Then
client 0 registers and goes to sleep. -/
def sendInGapRun : List Act :=
  Act.call 0 (.slopoll [⟨0, copollIn⟩] (-1)) :: List.replicate 2 (Act.run (.client 0)) ++
  Act.call 1 (.cosend 0 oneByte 1) :: List.replicate 5 (Act.run (.client 1)) ++
  List.replicate 6 (Act.run (.client 0))

/-- A send between the look at the event mask and the registration: the poller sleeps on a
port that has `COPOLL_IN`, and nobody is going to wake it. -/
theorem send_before_registration :
    ∃ s, Reach sysStep anyAct initSys s ∧ s.pc (.client 0) = .asleep pollIn ∧
      (s.port 0).length = 1 ∧ ¬NoLostWakeup s := by
  obtain ⟨s, hrun, hreach⟩ := exists_reach_of_isSome sysStep sendInGapRun initSys rfl
  have hparty : ∀ a ∈ sendInGapRun, a.party = .client 0 ∨ a.party = .client 1 := by decide
  have hmid : ∀ y, midNotify 0 (s.pc y) = false := by
    intro y
    by_cases h0 : y = .client 0
    · subst h0
      exact eq_of_map_runFrom (fun s => midNotify 0 (s.pc (.client 0))) hrun rfl
    by_cases h1 : y = .client 1
    · subst h1
      exact eq_of_map_runFrom (fun s => midNotify 0 (s.pc (.client 1))) hrun rfl
    -- Everybody else is where it started.
    have hstay : s.pc y = initSys.pc y := by
      refine pc_of_runFrom hrun fun a ha hy => ?_
      obtain hp | hp := hparty a ha
      · exact h0 (hy ▸ hp)
      · exact h1 (hy ▸ hp)
    rw [hstay]
    cases y <;> rfl
  cases hrun
  exact ⟨_, hreach, rfl, rfl, fun h =>
    h (.client 0) pollIn 0 ⟨0, copollIn⟩ rfl rfl rfl hmid (by decide) (by decide)⟩

end Comsg.Proofs.Ipcd
