import Comsg.Proofs.Ipcd.NotifierLoop

/-!
# `Comsg.Proofs.Ipcd.Progress`: when a thread can move

`Ready s c` says that a thread at `c` has something to do: what it waits for is there.
`advances_of_ready` shows that it then gets past `c` by itself, in one step or in two. The
second step is needed where a compare-exchange fails once and the loop tries again with the
value it saw. Failed compare-exchanges alone are no progress (`place`).

Two invariants say who is around to move.

* `kindOk_reach`: the threads of clients and the notifiers keep to their own code.
* `awakeOk_reach`: a notifier whose queue is not empty is awake, or was signalled.
-/

set_option autoImplicit false

namespace Comsg.Proofs.Ipcd

open Comsg.Lib
open Comsg.Ipcd

/-! ### Moving on -/

/-- A program counter without its loop variables. -/
def place : Pc → Pc
  | .recvAcquire p _ _          => .recvAcquire p .coportOpen false
  | .deliverAcquire i nEvents p _ => .deliverAcquire i nEvents p .coportDone
  | c                           => c

/-- Thread `x` is past where it was, or has failed an assertion. -/
def Past (s s' : Sys) (x : Party) : Prop :=
  place (s'.pc x) ≠ place (s.pc x) ∨ s'.aborted ≠ s.aborted

/-- Thread `x` can move on by itself, with at most one failed compare-exchange before. -/
def Advances (s : Sys) (x : Party) : Prop :=
  ∃ s', (sysStep s (.run x) = some s' ∨
    ∃ t, sysStep s (.run x) = some t ∧ sysStep t (.run x) = some s') ∧ Past s s' x

/-- The status is one that `cocarrier_send`, `cocarrier_recv` and `coport_close` do not wait
out. -/
def Settled (status : CoportStatus) : Prop :=
  status = .coportOpen ∨ status = .coportClosing ∨ status = .coportClosed

/-- The status is one from which a delivery takes the port. -/
def Deliverable (status : CoportStatus) : Prop :=
  status = .coportDone ∨ status = .coportOpen ∨ status = .coportClosing

/-- What a thread at this program counter waits for is there. -/
def Ready (s : Sys) : Pc → Prop
  | .idle | .answered _ | .asleep _ | .napping => False
  | .sendAcquire p _ _ | .recvAcquire p _ _ | .closeAcquire p => Settled (s.port p).status
  | .registerAcquire _ _ target | .unregisterAcquire _ _ target =>
    (s.port target.coport).status = .coportOpen
  | .deliverAcquire _ _ p _ => Deliverable (s.port p).status
  | .pollLock _ | .relock _ | .notifyLock _ _ | .notifierRelock => s.mutex = none
  | _ => True

/-! ### Kinds of threads -/

/-- The program counter belongs to the code of `copoll_deliver`. -/
def ofNotifier : Pc → Bool
  | .napping | .notifierRelock | .deliver _ _ | .deliverAcquire _ _ _ _ => true
  | .deliverLocked _ _ _ _ | .release _ _ (.deliver _ _) => true
  | _ => false

/-- Every thread runs its own code. -/
def KindOk (s : Sys) : Prop :=
  (∀ t, ofNotifier (s.pc (.client t)) = false) ∧ ∀ n, ofNotifier (s.pc (.notifier n)) = true

section Kinds
variable {s s' : Sys} {x : Party} {c c' : Pc} {p : Nat}

theorem Moves.ofNotifier_eq (h : Moves s x c c') : ofNotifier c' = ofNotifier c := by
  cases h with
  | call t c r hc =>
    have hentry : ofNotifier (r.entry t) = false := by cases r <;> rfl
    obtain rfl | ⟨a, rfl⟩ := hc <;> exact hentry
  | _ => rfl

theorem Acquires.ofNotifier_eq {found lock : CoportStatus} (h : Acquires p found lock c c') :
    ofNotifier c' = ofNotifier c := by
  cases h <;> rfl

theorem Works.ofNotifier_eq {port port' : Coport} (h : Works port p c c' port') :
    ofNotifier c' = ofNotifier c := by
  cases h <;> rfl

theorem ofNotifier_resume (status : CoportStatus) (after : After) :
    ofNotifier (Sys.resume p after) = ofNotifier (.release p status after) := by
  cases after <;> rfl

theorem Locks.ofNotifier_eq (h : Locks s x c c') : ofNotifier c' = ofNotifier c := by
  cases h <;> rfl

theorem Unlocks.ofNotifier_eq (h : Unlocks c c') : ofNotifier c' = ofNotifier c := by
  cases h <;> rfl

/-- No step changes the kind of a program counter. -/
theorem ofNotifier_effect (h : Effect s x s') (y : Party) :
    ofNotifier (s'.pc y) = ofNotifier (s.pc y) := by
  by_cases hy : y = x
  · subst hy
    cases h with
    | stay | assertion => rfl
    | move c h => simpa using h.ofNotifier_eq
    | acquire p found lock c h hst => simpa using h.ofNotifier_eq
    | work p c port h => simpa using h.ofNotifier_eq
    | release p status after h => simpa [h] using ofNotifier_resume status after
    | lock c h hm => simpa using h.ofNotifier_eq
    | unlock c h => simpa using h.ofNotifier_eq
    | read p index h => simp [h, ofNotifier]
    | openDone p a h hst => simp [h, ofNotifier]
    | freshListeners args i rs h => simp [h, ofNotifier]
    | put p a q h hq => simp [h, ofNotifier]
    | skip n i nEvents hx h hi he => simp [h, ofNotifier]
    | deliver n i nEvents p status hx h hm => simp [h, ofNotifier]
    | wakeNotifier n hx h => simp [h, ofNotifier]
  · rw [effect_pc_of_ne h hy]

theorem kindOk_reach {ok : Sys → Act → Prop} (h : Reach sysStep ok initSys s) : KindOk s := by
  refine h.invariant ⟨fun _ => rfl, fun _ => rfl⟩ fun s a s' _ hok _ hs => ?_
  have heff := sysStep_effect hs
  exact ⟨fun t => (ofNotifier_effect heff _).trans (hok.1 t),
    fun n => (ofNotifier_effect heff _).trans (hok.2 n)⟩

end Kinds

/-! ### Ready threads move on -/

section Ready
variable {s s' : Sys} {x : Party} {c : Pc} {p : Nat}

theorem sysStep_run (hab : s.aborted = none) : sysStep s (.run x) = s.runStep x := by
  simp [sysStep, hab]

/-- One step that changes the program counter for good. -/
theorem Advances.one (hs : sysStep s (.run x) = some s') (hpc : s.pc x = c)
    (hne : place (s'.pc x) ≠ place c) : Advances s x :=
  ⟨s', .inl hs, .inl (hpc ▸ hne)⟩

/-- One step that fails an assertion. -/
theorem Advances.abort (hs : sysStep s (.run x) = some s') (hab : s.aborted = none)
    (hab' : s'.aborted ≠ none) : Advances s x :=
  ⟨s', .inl hs, .inr (hab ▸ hab')⟩

theorem advances_lock {c' : Pc} (hpc : s.pc x = c) (hs : sysStep s (.run x) = s.lockMutex x c')
    (hm : s.mutex = none) (hne : place c' ≠ place c) : Advances s x := by
  have hlock : s.lockMutex x c' = some ({ s with mutex := some x }.goto x c') := by
    simp [Sys.lockMutex, hm]
  exact .one (hs.trans hlock) hpc (by simpa using hne)

/-- Two steps of a loop: the first fails and takes over the status `found`, the second takes
the port. -/
theorem Advances.retry {t : Sys} (hpc : s.pc x = c) (hs : sysStep s (.run x) = some t)
    (ht : sysStep t (.run x) = some s') (hne : place (s'.pc x) ≠ place c) : Advances s x :=
  ⟨s', .inr ⟨t, hs, ht⟩, .inl (by rwa [hpc])⟩

/-- The loops of `cocarrier_send` and `coport_close`. -/
theorem advances_openAcquire {c' : Pc} (hpc : s.pc x = c)
    (hs : sysStep s (.run x) = some (s.openAcquireStep x p c')) (hst : Settled (s.port p).status)
    (hne : place c' ≠ place c) (hne' : place pipeError ≠ place c) : Advances s x := by
  refine .one hs hpc ?_
  unfold Sys.openAcquireStep
  obtain hst | hst | hst := hst
  · simpa [hst] using hne
  · simpa [hst, pipeError] using hne'
  · simpa [hst, pipeError] using hne'

/-- The loops of `wait_for_events`. -/
theorem advances_pollAcquire {c' : Pc} (hpc : s.pc x = c)
    (hs : sysStep s (.run x) = some (s.pollAcquireStep x p c'))
    (hst : (s.port p).status = .coportOpen) (hne : place c' ≠ place c) : Advances s x := by
  refine .one hs hpc ?_
  unfold Sys.pollAcquireStep
  simpa [hst] using hne

/-- The loop of `cocarrier_recv` takes the port when it expects the status it finds. -/
theorem recvAcquire_takes {t : Nat} {status : CoportStatus} {closing : Bool}
    (hab : s.aborted = none) (hpc : s.pc (.client t) = .recvAcquire p status closing)
    (hst : (s.port p).status = status) :
    sysStep s (.run (.client t)) =
      some ((s.setStatus p .coportBusy).goto (.client t) (.recvLocked p status closing)) := by
  rw [sysStep_run hab, Sys.runStep, hpc]
  simp [Sys.clientStep, Sys.recvAcquireStep, hst]

theorem advances_recvAcquire {t : Nat} {status : CoportStatus} {closing : Bool}
    (hab : s.aborted = none) (hpc : s.pc (.client t) = .recvAcquire p status closing)
    (hst : Settled (s.port p).status) : Advances s (.client t) := by
  have hs : sysStep s (.run (.client t)) =
      some (s.recvAcquireStep (.client t) p status closing) := by
    rw [sysStep_run hab, Sys.runStep, hpc]
    rfl
  by_cases heq : (s.port p).status = status
  · exact .one (recvAcquire_takes hab hpc heq) hpc (by simp [place])
  · unfold Sys.recvAcquireStep at hs
    rw [if_neg heq] at hs
    -- After a failed compare-exchange the loop has the status it saw.
    have hretry : ∀ status' closing', (s.port p).status = status' →
        sysStep s (.run (.client t)) = some (s.goto (.client t) (.recvAcquire p status' closing')) →
        Advances s (.client t) := by
      intro status' closing' hst' hs'
      have hpc' : (s.goto (.client t) (.recvAcquire p status' closing')).pc (.client t) =
          .recvAcquire p status' closing' := by simp
      exact .retry hpc hs' (recvAcquire_takes hab hpc' hst') (by simp [place])
    obtain hst | hst | hst := hst
    · exact hretry .coportOpen closing hst (by rw [hs, hst])
    · exact hretry .coportClosing true hst (by rw [hs, hst])
    · -- `COPORT_CLOSED` ends the loop with an error.
      exact .one (hs.trans (by rw [hst])) hpc (by simp [place])

/-- The loop of `process_coport_event` takes the port when it expects the status it finds. -/
theorem deliverAcquire_takes {n : Fin nCopollNotifiers} {i nEvents : Nat} {status : CoportStatus}
    (hab : s.aborted = none) (hpc : s.pc (.notifier n) = .deliverAcquire i nEvents p status)
    (hst : (s.port p).status = status) :
    sysStep s (.run (.notifier n)) = some ((s.setStatus p .coportPolling).goto (.notifier n)
      (.deliverLocked i nEvents p status)) := by
  rw [sysStep_run hab, Sys.runStep, hpc]
  simp [Sys.notifierStep, Sys.deliverAcquireStep, hst]

theorem advances_deliverAcquire {n : Fin nCopollNotifiers} {i nEvents : Nat}
    {status : CoportStatus} (hab : s.aborted = none)
    (hpc : s.pc (.notifier n) = .deliverAcquire i nEvents p status)
    (hst : Deliverable (s.port p).status) : Advances s (.notifier n) := by
  by_cases heq : (s.port p).status = status
  · exact .one (deliverAcquire_takes hab hpc heq) hpc (by simp [place])
  · have hs : sysStep s (.run (.notifier n)) =
        some (s.goto (.notifier n) (.deliverAcquire i nEvents p (s.port p).status)) := by
      rw [sysStep_run hab, Sys.runStep, hpc]
      simp only [Sys.notifierStep, Sys.deliverAcquireStep, if_neg heq]
      obtain hst | hst | hst := hst <;> rw [hst]
    have hpc' : (s.goto (.notifier n) (.deliverAcquire i nEvents p (s.port p).status)).pc
        (.notifier n) = .deliverAcquire i nEvents p (s.port p).status := by simp
    exact .retry hpc hs (deliverAcquire_takes hab hpc' rfl) (by simp [place])

/-- A thread that serves a client moves on when it is ready. -/
theorem client_advances {t : Nat} (hab : s.aborted = none)
    (hkind : ofNotifier (s.pc (.client t)) = false) (hr : Ready s (s.pc (.client t))) :
    Advances s (.client t) := by
  have hs : sysStep s (.run (.client t)) = s.clientStep t (s.pc (.client t)) := sysStep_run hab
  -- First the program counters that wait, then those where the step depends on a test. All the
  -- others have one step, which leads elsewhere.
  cases hpc : s.pc (.client t) with
  | idle | answered | asleep =>
    rw [hpc] at hr
    cases hr
  | napping | notifierRelock | deliver | deliverAcquire | deliverLocked =>
    rw [hpc] at hkind
    cases hkind
  | sendAcquire p msg msgLen =>
    rw [hpc] at hs hr
    exact advances_openAcquire hpc hs hr (by simp [place]) (by simp [place, pipeError])
  | closeAcquire p =>
    rw [hpc] at hs hr
    exact advances_openAcquire hpc hs hr (by simp [place]) (by simp [place, pipeError])
  | recvAcquire p status closing =>
    rw [hpc] at hr
    exact advances_recvAcquire hab hpc hr
  | registerAcquire args i target =>
    rw [hpc] at hs hr
    exact advances_pollAcquire hpc hs hr (by simp [place])
  | unregisterAcquire args i target =>
    rw [hpc] at hs hr
    exact advances_pollAcquire hpc hs hr (by simp [place])
  | pollLock args =>
    rw [hpc] at hs hr
    exact advances_lock hpc hs hr (by simp [place])
  | relock args =>
    rw [hpc] at hs hr
    exact advances_lock hpc hs hr (by simp [place])
  | notifyLock p a =>
    rw [hpc] at hs hr
    exact advances_lock hpc hs hr (by simp [place])
  | sendLocked p msg msgLen =>
    rw [hpc] at hs
    refine .one hs hpc ?_
    simp only [Sys.sendWork]
    split <;> simp [place]
  | recvLocked p status closing =>
    rw [hpc] at hs
    refine .one hs hpc ?_
    simp only [Sys.recvWork]
    split <;> simp [place]
  | closeTest p =>
    rw [hpc] at hs
    simp only [Sys.clientStep] at hs
    split at hs <;> exact .one hs hpc (by simp [place])
  | release p status after =>
    rw [hpc] at hs
    refine .one hs hpc ?_
    cases after <;> simp [Sys.resume, place]
  | notifyTest p event a =>
    rw [hpc] at hs
    simp only [Sys.clientStep] at hs
    split at hs <;> exact .one hs hpc (by simp [place])
  | notifyPut p a =>
    rw [hpc] at hs
    simp only [Sys.clientStep, Sys.putCoportEvent] at hs
    split at hs
    · -- The queue is full, and the assertion of `put_coport_event` fails.
      exact .abort hs hab (by simp [Sys.abort])
    · exact .one hs hpc (by simp [place])
  | notifyOpen p a =>
    rw [hpc] at hs
    simp only [Sys.clientStep] at hs
    split at hs <;> exact .one hs hpc (by simp [place])
  | inspect args i rs =>
    rw [hpc] at hs
    simp only [Sys.clientStep] at hs
    split at hs
    · exact .one hs hpc (by simp [place])
    · refine .one hs hpc ?_
      unfold Sys.inspected
      split <;> simp [place]
  | register args i =>
    rw [hpc] at hs
    simp only [Sys.clientStep] at hs
    split at hs <;> exact .one hs hpc (by simp [place])
  | unregister args i =>
    rw [hpc] at hs
    simp only [Sys.clientStep, Sys.unregisterStep] at hs
    split at hs
    · split at hs
      · split at hs
        · exact .one hs hpc (by simp [place])
        · exact .abort hs hab (by simp [Sys.abort])
      · exact .one hs hpc (by simp [place])
    · exact .one hs hpc (by simp [place])
  | pollFinish args =>
    rw [hpc] at hs
    simp only [Sys.clientStep, Sys.pollFinishStep] at hs
    split at hs
    · exact .one hs hpc (by simp [place])
    · exact .abort hs hab (by simp [Sys.abort])
  | _ =>
    rw [hpc] at hs
    exact .one hs hpc (by simp [place])

/-- A notifier moves on when it is ready. -/
theorem notifier_advances {n : Fin nCopollNotifiers} (hab : s.aborted = none)
    (hkind : ofNotifier (s.pc (.notifier n)) = true) (hr : Ready s (s.pc (.notifier n))) :
    Advances s (.notifier n) := by
  have hs : sysStep s (.run (.notifier n)) = s.notifierStep n (s.pc (.notifier n)) :=
    sysStep_run hab
  cases hpc : s.pc (.notifier n) with
  | napping =>
    rw [hpc] at hr
    cases hr
  | notifierRelock =>
    rw [hpc] at hs hr
    exact advances_lock hpc hs hr (by simp [place])
  | deliver i nEvents =>
    rw [hpc] at hs
    simp only [Sys.notifierStep, Sys.deliverStep] at hs
    split at hs
    · split at hs
      · split at hs <;> exact .one hs hpc (by simp [place])
      · exact .one hs hpc (by simp [place])
    · exact .one hs hpc (by simp [place])
  | deliverAcquire i nEvents p status =>
    rw [hpc] at hr
    exact advances_deliverAcquire hab hpc hr
  | deliverLocked i nEvents p status =>
    rw [hpc] at hs
    simp only [Sys.notifierStep, Sys.deliverWork] at hs
    split at hs
    · exact .one hs hpc (by simp [place])
    · exact .abort hs hab (by simp [Sys.abort])
  | release p status after =>
    rw [hpc] at hs
    refine .one hs hpc ?_
    cases after <;> simp [Sys.resume, place]
  | _ =>
    rw [hpc] at hkind
    cases hkind

/-- A ready thread moves on. -/
theorem advances_of_ready (hkind : KindOk s) (hab : s.aborted = none) (hr : Ready s (s.pc x)) :
    Advances s x := by
  cases x with
  | client t => exact client_advances hab (hkind.1 t) hr
  | notifier n => exact notifier_advances hab (hkind.2 n) hr

end Ready

/-! ### Notifiers with work -/

/-- A notifier with an event in its queue is awake or was signalled. -/
def AwakeOk (s : Sys) : Prop :=
  ∀ n j p, entryAt (s.queue n) j = some p → s.pc (.notifier n) = .napping → s.signalled n = true

section Awake
variable {s s' : Sys} {x : Party} {c c' : Pc}

/-- A step that puts nothing into a queue and sends no notifier to sleep. -/
theorem AwakeOk.keep (hok : AwakeOk s) (hpc : s'.pc = Function.update s.pc x c')
    (hc : c' ≠ .napping) (hsig : s'.signalled = s.signalled)
    (hq : ∀ n j p, entryAt (s'.queue n) j = some p → ∃ r, entryAt (s.queue n) j = some r) :
    AwakeOk s' := by
  intro n j p he hnap
  obtain ⟨r, hr⟩ := hq n j p he
  rw [hpc] at hnap
  rw [hsig]
  by_cases hx : .notifier n = x
  · subst hx
    rw [Function.update_self] at hnap
    exact absurd hnap hc
  · rw [Function.update_of_ne hx] at hnap
    exact hok n j r hr hnap

/-- Clearing an entry puts nothing into a queue. -/
theorem entryAt_of_clear {n : Fin nCopollNotifiers} {i : Nat}
    (hq : s'.queue = Function.update s.queue n (clearAt (s.queue n) i)) (m : Fin nCopollNotifiers)
    (j p : Nat) (he : entryAt (s'.queue m) j = some p) : ∃ r, entryAt (s.queue m) j = some r := by
  rw [hq] at he
  by_cases hm : m = n
  · subst hm
    rw [Function.update_self, entryAt_clearAt] at he
    split at he
    · cases he
    · exact ⟨p, he⟩
  · rw [Function.update_of_ne hm] at he
    exact ⟨p, he⟩

/-- A notifier that goes to sleep has emptied its queue. -/
theorem entryAt_of_nap (hq : QueueOk s) {n : Fin nCopollNotifiers} {i nEvents : Nat}
    (hpc : s.pc (.notifier n) = .deliver i nEvents) (hi : nEvents ≤ i) (j : Nat) :
    entryAt (s.queue n) j = none := by
  have hloop := hq.loop n
  rw [hpc] at hloop
  obtain ⟨hn, hbefore⟩ := hloop
  by_cases hj : j < i
  · exact hbefore j hj
  · exact (hq.fits n).fresh j (by omega)

theorem Moves.ne_napping (h : Moves s x c c') : c' ≠ .napping := by
  cases h with
  | call t c r hc => cases r <;> nofun
  | _ => nofun

theorem Acquires.ne_napping {p : Nat} {found lock : CoportStatus}
    (h : Acquires p found lock c c') : c' ≠ .napping := by
  cases h <;> nofun

theorem Works.ne_napping {p : Nat} {port port' : Coport} (h : Works port p c c' port') :
    c' ≠ .napping := by
  cases h <;> nofun

theorem Locks.ne_napping (h : Locks s x c c') : c' ≠ .napping := by
  cases h <;> nofun

theorem resume_ne_napping (p : Nat) (after : After) : Sys.resume p after ≠ .napping := by
  cases after <;> nofun

theorem awakeOk_effect (hq : QueueOk s) (hkind : KindOk s) (hok : AwakeOk s) (h : Effect s x s') :
    AwakeOk s' := by
  have hsame : ∀ (n : Fin nCopollNotifiers) (j p : Nat), entryAt (s.queue n) j = some p →
      ∃ r, entryAt (s.queue n) j = some r := fun n j p he => ⟨p, he⟩
  cases h with
  | stay | assertion => exact hok
  | move c h => exact hok.keep rfl h.ne_napping rfl hsame
  | acquire p found lock c h hst => exact hok.keep rfl h.ne_napping rfl hsame
  | work p c port h => exact hok.keep rfl h.ne_napping rfl hsame
  | release p status after h => exact hok.keep rfl (resume_ne_napping p after) rfl hsame
  | read p index h => exact hok.keep rfl nofun rfl hsame
  | openDone p a h hst => exact hok.keep rfl nofun rfl hsame
  | lock c h hm => exact hok.keep rfl h.ne_napping rfl hsame
  | unlock c h =>
    by_cases hnap : c = .napping
    · subst hnap
      generalize hpc : s.pc x = cx at h
      cases h with
      | nap i nEvents hi =>
        -- The notifier that goes to sleep has an empty queue.
        intro n j p he hsleep
        by_cases hx : .notifier n = x
        · subst hx
          have hempty := entryAt_of_nap hq hpc hi j
          have he : entryAt (s.queue n) j = some p := he
          rw [hempty] at he
          cases he
        · refine hok n j p he ?_
          simpa [Function.update_of_ne hx] using hsleep
    · exact hok.keep rfl hnap rfl hsame
  | freshListeners args i rs h => exact hok.keep rfl nofun rfl hsame
  | put p a q h hput =>
    -- The notifier of the port is signalled if it sleeps.
    intro n j r he hsleep
    have hx : .notifier n ≠ x := by
      rintro rfl
      have := hkind.2 n
      rw [h] at this
      cases this
    simp only [Sys.goto_pc, Sys.signal_pc, Function.update_of_ne hx] at hsleep
    by_cases hn : n = getCoportNotifierIndex p
    · subst hn
      simp [Sys.signal, hsleep]
    · have hold : s.signalled n = true := by
        refine hok n j r ?_ hsleep
        simpa [Function.update_of_ne hn] using he
      unfold Sys.signal
      split <;> simp [Function.update_of_ne hn, hold]
  | skip n i nEvents hx h hi he =>
    exact hok.keep rfl nofun rfl fun m j p hm => entryAt_of_clear rfl m j p hm
  | deliver n i nEvents p status hx h hm =>
    exact hok.keep rfl nofun rfl fun m j p hm => entryAt_of_clear rfl m j p hm
  | wakeNotifier n hx h =>
    subst hx
    intro m j p he hsleep
    by_cases hm : m = n
    · -- It is awake now, so the signal it used up is not needed any more.
      subst hm
      simp at hsleep
    · have hne : Party.notifier m ≠ .notifier n := by simpa using hm
      simp only [Sys.goto_pc, Function.update_of_ne hne] at hsleep
      simpa [Function.update_of_ne hm] using hok m j p he hsleep

theorem awakeOk_reach {ok : Sys → Act → Prop} (h : Reach sysStep ok initSys s) : AwakeOk s := by
  refine h.invariant ?_ fun s a s' hr hok _ hs =>
    awakeOk_effect (queueOk_reach hr) (kindOk_reach hr) hok (sysStep_effect hs)
  intro n j p he
  have hfresh := (queueOk_init.fits n).fresh j (Nat.zero_le j)
  rw [hfresh] at he
  cases he

end Awake

end Comsg.Proofs.Ipcd
