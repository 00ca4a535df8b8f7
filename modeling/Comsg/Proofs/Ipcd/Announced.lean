import Comsg.Proofs.Ipcd.Listeners

/-!
# `Comsg.Proofs.Ipcd.Announced`: which events are announced

`cocarrier_send` announces `COPOLL_IN` and `cocarrier_recv` announces `COPOLL_OUT`, in a call of
`copoll_notify` at their end. The exits with `EAGAIN` turn on `COPOLL_WERR` or `COPOLL_RERR`, and
`coport_close` turns on `COPOLL_CLOSED`, without such a call. `raised_announced_iff` says that these
are the only events that nobody announces, in every run and with any steps of other threads in
between.
-/

set_option autoImplicit false

namespace Comsg.Proofs.Ipcd

open Comsg.Lib
open Comsg.Ipcd

/-- The step turns on an event of port `p` that the registered listener `l` waits for. -/
def Raises (s s' : Sys) (p : Nat) (l : ListenEntry) : Prop :=
  l ∈ (s.port p).listeners ∧ ∃ i, l.events.getLsbD i = true ∧
    (s.port p).event.getLsbD i = false ∧ (s'.port p).event.getLsbD i = true

/-- Thread `x` puts port `p` into the queue of its notifier. -/
def Queues (s s' : Sys) (x : Party) (p : Nat) : Prop :=
  (∃ a, s.pc x = .notifyPut p a) ∧
    (s.queue (getCoportNotifierIndex p)).putCoportEvent p =
      some (s'.queue (getCoportNotifierIndex p))

/-- Thread `x` tests in `copoll_notify` whether it has to announce something about port `p`, and
`l` is not in the list any more: a delivery or its own poller has taken it out. -/
def TestsWithout (s : Sys) (x : Party) (p : Nat) (l : ListenEntry) : Prop :=
  (∃ event a, s.pc x = .notifyTest p event a) ∧ l ∉ (s.port p).listeners

/-- The thread makes no other request. -/
def SameRequest (x : Party) (_ : Sys) (a : Act) : Prop := ∀ t r, a = .call t r → x ≠ .client t

/-- Whenever the request of thread `x` has its answer, `x` has queued port `p` before, unless `l`
had left the list. -/
def Announced (s : Sys) (x : Party) (p : Nat) (l : ListenEntry) : Prop :=
  ∀ acts s', Run sysStep (SameRequest x) s acts s' → (∃ a, s'.pc x = .answered a) →
    ∃ before b u u', Run.At sysStep (SameRequest x) s acts before b u u' ∧ b.party = x ∧
      (Queues u u' x p ∨ TestsWithout u x p l)

/-- The thread is about to leave with `EAGAIN`, or to close the port. -/
def Forgets (s : Sys) (x : Party) : Prop :=
  (∃ p msg msgLen, s.pc x = .sendLocked p msg msgLen ∧ (s.port p).sendRefused) ∨
  (∃ p status closing, s.pc x = .recvLocked p status closing ∧ (s.port p).recvRefused) ∨
  ∃ p, s.pc x = .closeLocked p

/-! ### Which events a request turns on -/

theorem in_of_sentEvent {event : CoportEventmask} {n i : Nat} (hoff : event.getLsbD i = false)
    (hon : (Coport.sentEvent event n).getLsbD i = true) : copollIn.getLsbD i = true := by
  unfold Coport.sentEvent at hon
  split at hon
  · simp only [BitVec.getLsbD_and, BitVec.getLsbD_or, hoff, Bool.or_false, Bool.and_eq_true] at hon
    exact hon.1
  · simp only [BitVec.getLsbD_and, BitVec.getLsbD_or, hoff, Bool.or_false, Bool.and_eq_true] at hon
    exact hon.1

theorem out_of_takenEvent {event : CoportEventmask} {n i : Nat} {closing : Bool}
    (hoff : event.getLsbD i = false)
    (hon : (Coport.takenEvent event n closing).getLsbD i = true) : copollOut.getLsbD i = true := by
  cases closing with
  | true =>
    simp only [Coport.takenEvent, if_true] at hon
    split at hon
    · simp [hoff] at hon
    · simp [hoff] at hon
  | false =>
    simp only [Coport.takenEvent, Bool.false_eq_true, if_false] at hon
    split at hon
    · simp only [BitVec.getLsbD_and, BitVec.getLsbD_or, hoff, Bool.false_or,
        Bool.and_eq_true] at hon
      exact hon.1
    · simp only [BitVec.getLsbD_and, BitVec.getLsbD_or, hoff, Bool.false_or,
        Bool.and_eq_true] at hon
      exact hon.1

/-- The thread is between its update of port `p` and the put that announces `event`. -/
inductive Announcing (p : Nat) (event : CoportEventmask) : Pc → Prop
  | storing (status : CoportStatus) (a : Answer) :
      Announcing p event (.release p status (.notify event a))
  | taken (status : CoportStatus) (index : Nat) (h : event = copollOut) :
      Announcing p event (.release p status (.read index))
  | reading (index : Nat) (h : event = copollOut) : Announcing p event (.recvRead p index)
  | testing (a : Answer) : Announcing p event (.notifyTest p event a)
  | locking (a : Answer) : Announcing p event (.notifyLock p a)
  | putting (a : Answer) : Announcing p event (.notifyPut p a)

section
variable {s s' : Sys} {x : Party} {p : Nat} {l : ListenEntry} {event : CoportEventmask}

/-- A step changes the event mask of a port only in a locked section on that port. -/
theorem work_of_raises (h : Effect s x s') (hraise : Raises s s' p l) :
    ∃ c port, Works (s.port p) p (s.pc x) c port ∧ s' = (s.setPort p port).goto x c := by
  obtain ⟨-, i, -, hoff, hon⟩ := hraise
  have hne {t : Sys} (ht : s' = t) (hsame : (t.port p).event = (s.port p).event) : False := by
    rw [ht, hsame, hoff] at hon
    cases hon
  -- A step on a port that keeps its event mask.
  have hother {q : Nat} {port : Coport} (hport : s'.port = Function.update s.port q port)
      (hevent : port.event = (s.port q).event) : False := by
    rw [hport] at hon
    by_cases hq : p = q
    · subst hq
      rw [Function.update_self, hevent, hoff] at hon
      cases hon
    · rw [Function.update_of_ne hq, hoff] at hon
      cases hon
  cases h with
  | work q c port hw =>
    by_cases hq : p = q
    · subst hq
      exact ⟨c, port, hw, rfl⟩
    · rw [Sys.goto_port, Sys.setPort_port, Function.update_of_ne hq, hoff] at hon
      cases hon
  | acquire q found lock c ha hst => exact (hother rfl rfl).elim
  | release q status after hc => exact (hother rfl rfl).elim
  | read q index hc => exact (hother rfl rfl).elim
  | openDone q a hc hst => exact (hother rfl rfl).elim
  | deliver n j nEvents q status hx hc hm => exact (hother rfl rfl).elim
  | put q a r hc hq => exact (hne rfl (by simp)).elim
  | _ => exact (hne rfl rfl).elim

/-- A request that turns on an event of a listener announces it, or forgets to. -/
theorem announcing_or_forgets (h : Effect s x s') (hraise : Raises s s' p l) :
    (Forgets s x ∧ ∃ status a, s'.pc x = .release p status (.answer a)) ∨
      (¬Forgets s x ∧ ∃ event, Announcing p event (s'.pc x) ∧ Meets l.events event) := by
  obtain ⟨c, port, hwork, rfl⟩ := work_of_raises h hraise
  obtain ⟨-, i, hli, hoff, hon⟩ := hraise
  rw [Sys.goto_port, Sys.setPort_port, Function.update_self] at hon
  rw [Sys.goto_pc, Function.update_self]
  generalize hc : s.pc x = c₀ at hwork
  -- A send turns on `COPOLL_IN` and a receive `COPOLL_OUT`, and each announces just that.
  cases hwork with
  | sendRefused msg msgLen hr => exact .inl ⟨.inl ⟨p, msg, msgLen, hc, hr⟩, _, _, rfl⟩
  | sendAccepted msg msgLen hr =>
    refine .inr ⟨?_, copollIn, .storing _ _, (meets_iff _ _).mpr ⟨i, hli, in_of_sentEvent hoff hon⟩⟩
    rintro (⟨q, msg', len', hpc, hr'⟩ | ⟨q, status, closing, hpc, -⟩ | ⟨q, hpc⟩)
    · obtain ⟨rfl, -, -⟩ := Pc.sendLocked.inj (hc.symm.trans hpc)
      exact hr hr'
    · cases hc.symm.trans hpc
    · cases hc.symm.trans hpc
  | recvRefused status closing hr =>
    exact .inl ⟨.inr (.inl ⟨p, status, closing, hc, hr⟩), _, _, rfl⟩
  | recvTaken status closing hr =>
    refine .inr ⟨?_, copollOut, .taken _ _ rfl,
      (meets_iff _ _).mpr ⟨i, hli, out_of_takenEvent hoff hon⟩⟩
    rintro (⟨q, msg', len', hpc, -⟩ | ⟨q, status', closing', hpc, hr'⟩ | ⟨q, hpc⟩)
    · cases hc.symm.trans hpc
    · obtain ⟨rfl, -, -⟩ := Pc.recvLocked.inj (hc.symm.trans hpc)
      exact hr hr'
    · cases hc.symm.trans hpc
  | close => exact .inl ⟨.inr (.inr ⟨p, hc⟩), _, _, rfl⟩
  -- The poller's sections leave the event mask alone.
  | register args j target ht =>
    rw [show (Coport.addListener (s.port p) _).event = (s.port p).event from rfl, hoff] at hon
    cases hon
  | unregister args j target ht =>
    rw [show (Coport.removeListener (s.port p) _).event = (s.port p).event from rfl, hoff] at hon
    cases hon

/-! ### The way to the put -/

/-- One step on the way. -/
theorem Announcing.step (h : Announcing p event (s.pc x)) (he : Effect s x s') :
    Announcing p event (s'.pc x) ∨ Queues s s' x p ∨
      ∃ a, s.pc x = .notifyTest p event a ∧ ¬(s.port p).announces event := by
  generalize hc : s.pc x = c at h
  cases he with
  | stay => exact .inl (hc ▸ h)
  | assertion a ha => exact .inl (hc ▸ h)
  | move c' hm =>
    rw [hc] at hm
    cases hm with
    | call t c r hr => rcases hr with rfl | ⟨a, rfl⟩ <;> cases h
    | commit _ q e a hann =>
      left
      rw [Sys.goto_pc, Function.update_self]
      cases h with
      | testing a => exact .locking a
    -- The test of `copoll_notify` fails: nothing is announced.
    | decline _ q e a hann =>
      cases h with
      | testing a => exact .inr (.inr ⟨a, rfl, hann⟩)
    | _ => cases h
  | acquire q found lock c' ha hst =>
    rw [hc] at ha
    cases ha <;> cases h
  | work q c' port hw =>
    rw [hc] at hw
    cases hw <;> cases h
  | release q status after hr =>
    left
    rw [Sys.goto_pc, Function.update_self]
    obtain rfl := hr.symm.trans hc
    cases h with
    | storing status a => exact .testing a
    | taken status index he => exact .reading index he
  | read q index hr =>
    left
    rw [Sys.goto_pc, Function.update_self]
    obtain rfl := hr.symm.trans hc
    cases h with
    | reading index he =>
      subst he
      exact .testing _
  | lock c' hl hm =>
    rw [hc] at hl
    cases hl with
    | notify _ q a =>
      left
      rw [Sys.goto_pc, Function.update_self]
      cases h with
      | locking a => exact .putting a
    | _ => cases h
  | unlock c' hu =>
    rw [hc] at hu
    cases hu <;> cases h
  | put q a r hr hq =>
    obtain rfl := hr.symm.trans hc
    cases h
    exact .inr (.inl ⟨⟨a, hr⟩, by simp [hq]⟩)
  | openDone q a hr hst =>
    obtain rfl := hr.symm.trans hc
    cases h
  | freshListeners args i rs hr =>
    obtain rfl := hr.symm.trans hc
    cases h
  | skip n i nEvents hx hr hi he =>
    obtain rfl := hr.symm.trans hc
    cases h
  | deliver n i nEvents q status hx hr hm =>
    obtain rfl := hr.symm.trans hc
    cases h
  | wakeNotifier n hx hr =>
    obtain rfl := hr.symm.trans hc
    cases h

/-- A run from the update on: the thread is still on its way, or it has queued the port, or it has
found the listener gone. -/
theorem Announcing.run {ok : Sys → Act → Prop} {acts : List Act}
    (hreach : Reach sysStep anyAct initSys s) (h : Announcing p event (s.pc x))
    (hmeets : Meets l.events event) (hrun : Run sysStep ok s acts s') :
    Announcing p event (s'.pc x) ∨
      ∃ before b u u', Run.At sysStep ok s acts before b u u' ∧ b.party = x ∧
        (Queues u u' x p ∨ TestsWithout u x p l) := by
  induction hrun with
  | init => exact .inl h
  | @next acts u u' b hrun hok hs ih =>
    rcases ih with hway | ⟨before, b', t, t', hat, hdone⟩
    · by_cases hb : b.party = x
      · rcases hway.step (hb ▸ sysStep_effect hs) with hway' | hqueues | ⟨a, hpc, hno⟩
        · exact .inl hway'
        · exact .inr ⟨acts, b, u, u', ⟨⟨[], rfl⟩, hrun, hok, hs⟩, hb, .inl hqueues⟩
        · -- The listener would have made the test succeed.
          have hu : Reach sysStep anyAct initSys u :=
            hreach.trans (hrun.reach.mono fun _ _ _ => trivial)
          have hgone : l ∉ (u.port p).listeners := fun hl =>
            hno (Covered.announces (covers_reach hu p) hl hmeets)
          exact .inr ⟨acts, b, u, u', ⟨⟨[], rfl⟩, hrun, hok, hs⟩, hb, .inr ⟨⟨event, a, hpc⟩, hgone⟩⟩
      · left
        rw [effect_pc_of_ne (sysStep_effect hs) (Ne.symm hb)]
        exact hway
    · exact .inr ⟨before, b', t, t', hat.concat, hdone⟩

/-- An event that is not announced before the answer. -/
theorem not_announced_of_answer {status : CoportStatus} {a : Answer} {s'' : Sys}
    (hpc : s.pc x = .release p status (.answer a)) (hs : sysStep s (.run x) = some s'')
    (hans : s''.pc x = .answered a) : ¬Announced s x p l := by
  intro h
  have hrun : Run sysStep (SameRequest x) s ([] ++ [Act.run x]) s'' := .next _ .init nofun hs
  obtain ⟨before, b, u, u', hat, -, hdone⟩ := h _ s'' hrun ⟨a, hans⟩
  obtain ⟨after, hsplit⟩ := hat.split
  -- The run has one step only, and it is the one to the answer.
  have hbefore : before = [] := by
    cases before with
    | nil => rfl
    | cons c cs => simp at hsplit
  subst hbefore
  have hu : s = u := by simpa [runFrom] using hat.run.runFrom_eq
  subst hu
  rcases hdone with ⟨⟨a', hput⟩, -⟩ | ⟨⟨event, a', htest⟩, -⟩
  · cases hpc.symm.trans hput
  · cases hpc.symm.trans htest

/-- In every run, an event that a step turns on and that a registered listener waits for is
announced if and only if the step is not one of the three that forget it. -/
theorem raised_announced_iff (h : Reach sysStep anyAct initSys s) {a : Act}
    (hs : sysStep s a = some s') (hraise : Raises s s' p l) :
    Announced s' a.party p l ↔ ¬Forgets s a.party := by
  have hreach : Reach sysStep anyAct initSys s' := .next a h trivial hs
  have heffect := sysStep_effect hs
  rcases announcing_or_forgets heffect hraise with
    ⟨hforgets, status, r, hpc⟩ | ⟨hno, event, hway, hmeets⟩
  · refine iff_of_false ?_ (fun hno => hno hforgets)
    obtain ⟨c, port, -, heq⟩ := work_of_raises heffect hraise
    have hrunning : s'.aborted = none := by
      have hbefore := not_aborted_of_sysStep hs
      rw [heq]
      exact hbefore
    have hnext : sysStep s' (.run a.party) =
        some ((s'.setStatus p status).goto a.party (.answered r)) := by
      cases hx : a.party with
      | client t => simp [sysStep, hrunning, Sys.runStep, Sys.clientStep, hx ▸ hpc, Sys.resume]
      | notifier n => simp [sysStep, hrunning, Sys.runStep, Sys.notifierStep, hx ▸ hpc, Sys.resume]
    exact not_announced_of_answer hpc hnext (by simp)
  · refine iff_of_true ?_ hno
    rintro acts s'' hrun ⟨r, hans⟩
    rcases hway.run hreach hmeets hrun with hway' | hdone
    · rw [hans] at hway'
      cases hway'
    · exact hdone

end

/-- Client 1 sends. The `COPOLL_IN` that it turns on is announced. -/
theorem raised_announced_iff_send :
    ∃ s s', Reach sysStep anyAct initSys s ∧ sysStep s (.run (.client 1)) = some s' ∧
      Raises s s' 0 ⟨0, 0, copollIn⟩ ∧ Announced s' (.client 1) 0 ⟨0, 0, copollIn⟩ := by
  obtain ⟨s, hrun, hreach⟩ := exists_reach_of_isSome sysStep
    (sleepFor copollIn ++ [Act.call 1 (.cosend 0 oneByte 1), Act.run (.client 1)]) initSys rfl
  cases hrun
  refine ⟨_, _, hreach, rfl, ⟨List.mem_singleton.mpr rfl, 1, rfl, rfl, rfl⟩,
    (raised_announced_iff (a := .run (.client 1)) hreach rfl
      ⟨List.mem_singleton.mpr rfl, 1, rfl, rfl, rfl⟩).mpr ?_⟩
  rintro (⟨p, msg, msgLen, hpc, hrefused⟩ | ⟨p, status, closing, hpc, -⟩ | ⟨p, hpc⟩)
  · cases hpc
    exact absurd hrefused (by decide)
  · cases hpc
  · cases hpc

/-- Client 1 closes the port. It turns on `COPOLL_CLOSED`, but client 0 is not told. -/
theorem close_not_announced :
    ∃ s s', Reach sysStep anyAct initSys s ∧ s.pc (.client 1) = .closeLocked 0 ∧
      s.pc (.client 0) = .asleep ⟨0, [⟨0, copollClosed⟩], -1⟩ ∧
      sysStep s (.run (.client 1)) = some s' ∧ Raises s s' 0 ⟨0, 0, copollClosed⟩ ∧
      ¬Announced s' (.client 1) 0 ⟨0, 0, copollClosed⟩ := by
  obtain ⟨s, hrun, hreach⟩ := exists_reach_of_isSome sysStep
    (sleepFor copollClosed ++ .call 1 (.coclose 0) :: runs (.client 1) 2) initSys rfl
  cases hrun
  exact ⟨_, _, hreach, rfl, rfl, rfl, ⟨List.mem_singleton.mpr rfl, 0, rfl, rfl, rfl⟩,
    not_announced_of_answer rfl rfl rfl⟩

end Comsg.Proofs.Ipcd
