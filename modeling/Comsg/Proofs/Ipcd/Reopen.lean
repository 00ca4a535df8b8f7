import Comsg.Proofs.Ipcd.ClosedBit

/-!
# `Comsg.Proofs.Ipcd.Reopen`: deliveries on a closing port

`process_coport_event` takes a port from `COPORT_DONE`, `COPORT_OPEN` or `COPORT_CLOSING`, and
stores `COPORT_CLOSED` when it found `COPORT_CLOSING` and nothing is queued. In every other
case it stores `COPORT_OPEN`. A closing port with messages left is opened by that. The next
receive then sees an open port and sets `COPOLL_OUT`, and the next send is accepted
(`delivery_reopens`).

`delivery_never_reopens` says that this is the only way. In every run in which each delivery
on a closing port finds its queue empty, a delivery leaves a closing port closing or closed,
and no send is accepted whose locked section begins after a close has stored
`COPORT_CLOSING`.

The invariant is `Shut`: once `COPOLL_CLOSED` is set, `COPOLL_OUT` is not, no send is on its
way to a notification, and the port stands at `COPORT_OPEN` only with an empty queue. The last
part is needed because a receive that finds nothing stores `COPORT_OPEN` on a closing port
too. It does no harm: an open port with an empty queue and without `COPOLL_OUT` refuses both
sends and receives.
-/

set_option autoImplicit false

namespace Comsg.Proofs.Ipcd

open Comsg.Lib
open Comsg.Ipcd

/-- The step is not a delivery that found `COPORT_CLOSING` with messages queued. -/
def DrainedDelivery (s : Sys) (a : Act) : Prop :=
  ∀ i nEvents p, s.pc a.party = .deliverLocked i nEvents p .coportClosing → (s.port p).length = 0

/-- A delivery of `x` that found `COPORT_CLOSING` goes on to store `COPORT_CLOSING`, or
`COPORT_CLOSED` if nothing is queued. -/
def KeepsClosing (s s' : Sys) (x : Party) : Prop :=
  ∀ i nEvents p, s.pc x = .deliverLocked i nEvents p .coportClosing → s'.aborted = none →
    ∃ status, s'.pc x = .release p status (.deliver (i + 1) nEvents) ∧
      (status = .coportClosing ∨ (status = .coportClosed ∧ (s.port p).length = 0))

/-- From `s` on, under the restriction `ok`, every send that reaches its locked section on
port `p` is refused there. -/
def SendsRefused (ok : Sys → Act → Prop) (p : Nat) (s : Sys) : Prop :=
  ∀ s', Reach sysStep ok s s' → ∀ x msg msgLen, s'.pc x = .sendLocked p msg msgLen →
    (s'.port p).sendRefused

/-- The thread is about to make the store that ends a successful `coport_close`. -/
def ClosingStore (s : Sys) (t p : Nat) : Prop :=
  s.pc (.client t) = .release p .coportClosing (.answer (.reply .closed))

/-! ### The invariant of one port -/

/-- A port that was closed admits no send. -/
def Shut (v : PortView) : Prop :=
  Meets v.port.event copollClosed → ¬Meets v.port.event copollOut ∧ ¬Stands v .coportDone ∧
    (Stands v .coportOpen → v.port.length = 0)

section Views
variable {v v' : PortView} {x : Party} {r : Role} {port : Coport}

/-- The work of a request on a port that is shut. -/
theorem shut_work (hs : Sound v) (hin : InBit v) (hshut : Shut v)
    (h : PortWorks v.port (v.role x) r port) :
    Shut { v with port, role := Function.update v.role x r } := by
  intro hclosed
  obtain ⟨hst, found, status, hfound, hstatus, -⟩ := h.carried_eq
  have hx : carried (v.role x) ≠ none := by simp [hfound]
  -- What stands after the work is what the holder is about to store.
  have hstands : ∀ st, ¬Taken st →
      Stands { v with port, role := Function.update v.role x r } st → carried r = some st :=
    fun st hfree hst' => hs.stands_of_work hst' hfree hx hst rfl
  have hfoundOk := hs.found x
  generalize hrole : v.role x = rx at h
  rw [hrole] at hfound hfoundOk
  have hcarried : ∀ st, carried rx = some st → Stands v st := by
    intro st hcst
    exact .inr ⟨x, by rw [hrole, hcst]⟩
  cases h with
  | sendRefused msg h =>
    simp only [Coport.refuseSend, or_werr_closed] at hclosed
    obtain ⟨hout, hdone, hempty⟩ := hshut hclosed
    refine ⟨by simpa [Coport.refuseSend] using hout, fun hd => ?_, fun _ => hempty (hcarried _ rfl)⟩
    simpa [carried] using hstands _ (by simp [Taken]) hd
  | sendAccepted msg h =>
    simp only [Coport.enqueue, sentEvent_closed] at hclosed
    -- Without `COPOLL_OUT` the send would have been refused.
    exact absurd (.inr (hshut hclosed).1) h
  | recvRefused found closing h =>
    simp only [Coport.refuseRecv, or_rerr_closed] at hclosed
    obtain ⟨hout, hdone, hempty⟩ := hshut hclosed
    -- The refusal stores `COPORT_OPEN` whatever it found, but only on an empty queue.
    have hzero : v.port.length = 0 := by
      obtain hlen | hnot := h
      · exact hlen
      · exact Nat.eq_zero_of_not_pos fun hpos => hnot (hin.mpr hpos)
    refine ⟨by simpa [Coport.refuseRecv] using hout, fun hd => ?_, fun _ => hzero⟩
    simpa [carried] using hstands _ (by simp [Taken]) hd
  | recvTaken found closing h =>
    simp only [Coport.dequeue, takenEvent_closed] at hclosed
    obtain ⟨hout, hdone, hempty⟩ := hshut hclosed
    -- An open port that is shut has nothing to receive, so this one was found closing, and
    -- `COPOLL_OUT` stays clear.
    have hne : found ≠ .coportOpen := by
      rintro rfl
      exact h (.inl (hempty (hcarried _ rfl)))
    obtain hopen | ⟨rfl, rfl⟩ := hfoundOk
    · exact absurd hopen hne
    · refine ⟨by simpa [Coport.dequeue] using hout, fun hd => ?_, fun ho => ?_⟩
      · simpa [carried] using hstands _ (by simp [Taken]) hd
      · simpa [carried] using hstands _ (by simp [Taken]) ho
  | close =>
    refine ⟨by simp [Coport.markClosed], fun hd => ?_, fun ho => ?_⟩
    · simpa [carried] using hstands _ (by simp [Taken]) hd
    · simpa [carried] using hstands _ (by simp [Taken]) ho
  | register l | unregister l =>
    obtain ⟨hout, hdone, hempty⟩ := hshut hclosed
    refine ⟨hout, fun hd => ?_, fun _ => hempty (hcarried _ rfl)⟩
    simpa [carried] using hstands _ (by simp [Taken]) hd

/-- A delivery on a port that is shut, when a closing port has an empty queue. -/
theorem shut_deliver {found : CoportStatus} {k : Nat} (hs : Sound v) (hshut : Shut v)
    (hx : v.role x = .delivering found)
    (hdrained : found = .coportClosing → v.port.length = 0) :
    Shut { port := v.port.deliver, queued := k,
           role := Function.update v.role x (.storing (v.port.deliverStatus found) .done) } := by
  intro hclosed
  obtain ⟨hout, hdone, hempty⟩ := hshut hclosed
  have hfoundOk := hs.found x
  rw [hx] at hfoundOk
  have hcx : carried (v.role x) ≠ none := by simp [hx, carried]
  have hstands : Stands v found := .inr ⟨x, by rw [hx]; rfl⟩
  -- The port was found open and empty, or closing and empty.
  have hzero : v.port.length = 0 := by
    obtain rfl | rfl | rfl := hfoundOk
    · exact absurd hstands hdone
    · exact hempty hstands
    · exact hdrained rfl
  refine ⟨hout, fun hd => ?_, fun _ => hzero⟩
  have hstore := hs.stands_of_work hd (by simp [Taken]) hcx rfl rfl
  simp only [carried, Coport.deliverStatus, Option.some.injEq] at hstore
  split at hstore <;> cases hstore

theorem shut_step (hs : Sound v) (hin : InBit v) (hshut : Shut v)
    (hdrained : v.role x = .delivering .coportClosing → v.port.length = 0)
    (h : PortStep v x v') : Shut v' := by
  obtain hquiet | ⟨r, port, hwork, rfl⟩ | ⟨found, k, hx, rfl⟩ := h.quiet_or_work
  · obtain ⟨hlen, -, -, hevent, -⟩ := hquiet.guarded
    intro hclosed
    rw [hevent] at hclosed
    obtain ⟨hout, hdone, hempty⟩ := hshut hclosed
    refine ⟨by rwa [hevent], fun hd => ?_, fun ho => ?_⟩
    · simpa [hdone] using hquiet.stands _ (by simp [Taken]) hd
    · rw [hlen]
      -- `copoll_notify` opens a port in `COPORT_DONE` only, which a port that is shut is not.
      obtain ho | ⟨-, hst⟩ := hquiet.stands _ (by simp [Taken]) ho
      · exact hempty ho
      · exact absurd (.inl hst) hdone
  · exact shut_work hs hin hshut hwork
  · exact shut_deliver hs hshut hx fun hf => hdrained (hf ▸ hx)

end Views

/-! ### Runs -/

section System
variable {s s' : Sys} {x : Party} {p : Nat}

theorem shut_reach (h : Reach sysStep DrainedDelivery initSys s) (p : Nat) :
    Shut (viewOf p s) := by
  refine view_invariant (fun v x => Sound v ∧ InBit v ∧
    (v.role x = .delivering .coportClosing → v.port.length = 0)) p ?_ ?_ ?_ h
  · rw [viewOf_init]
    intro hclosed
    exact absurd hclosed (by decide)
  · intro s a hr hok
    refine ⟨sound_reach hr p, inBit_reach hr p, fun hrole => ?_⟩
    obtain ⟨i, nEvents, hpc⟩ := comesFrom_of_role hrole
    exact hok i nEvents p hpc
  · rintro v x v' hshut ⟨hs, hin, hdrained⟩ hstep
    exact shut_step hs hin hshut hdrained hstep

/-- `COPOLL_CLOSED` stays set along every run. -/
theorem closed_reach {ok : Sys → Act → Prop} (h₀ : Reach sysStep ok initSys s)
    (hc : Meets (s.port p).event copollClosed) (h : Reach sysStep ok s s') :
    Meets (s'.port p).event copollClosed := by
  induction h with
  | init => exact hc
  | next a h hok hs ih =>
    have hr := h₀.trans h
    obtain hsame | hview := viewOf_effect (queueOk_reach hr) (loopVars_reach hr)
      (sysStep_effect hs) p
    · have hport := congrArg PortView.port hsame
      exact (congrArg Coport.event hport) ▸ ih
    · exact closed_step ih hview

/-- A drained delivery on a closing port stores `COPORT_CLOSED`. -/
theorem keepsClosing_of_drained (hok : DrainedDelivery s (.run x))
    (h : sysStep s (.run x) = some s') : KeepsClosing s s' x := by
  intro i nEvents p hpc hab
  have hzero := hok i nEvents p hpc
  cases x with
  | client t =>
    -- Only a notifier is at this program counter.
    unfold sysStep at h
    split at h
    · cases h
    · simp only [Sys.runStep, hpc, Sys.clientStep] at h
      cases h
  | notifier n =>
    unfold sysStep at h
    split at h
    · cases h
    · simp only [Sys.runStep, hpc, Sys.notifierStep, Sys.deliverWork, Option.some.injEq] at h
      split at h
      · subst h
        have hstore : (s.port p).deliverStatus .coportClosing = .coportClosed := by
          simp [Coport.deliverStatus, hzero]
        exact ⟨.coportClosed, by simp [hstore], .inr ⟨rfl, hzero⟩⟩
      · subst h
        cases hab

/-- After a close has stored `COPORT_CLOSING`, no send is accepted. -/
theorem sendsRefused_of_closingStore {t : Nat} (h : Reach sysStep DrainedDelivery initSys s)
    (hclose : ClosingStore s t p) (hs : sysStep s (.run (.client t)) = some s')
    (hok : DrainedDelivery s (.run (.client t))) : SendsRefused DrainedDelivery p s' := by
  intro s₂ h₂ x msg msgLen _
  have h₁ : Reach sysStep DrainedDelivery initSys s' := .next _ h hok hs
  -- The close is about to store `COPORT_CLOSING`, so `COPOLL_CLOSED` is set and stays set.
  have hstands : Stands (viewOf p s) .coportClosing := by
    refine .inr ⟨.client t, ?_⟩
    have hrole : (viewOf p s).role (.client t) = role p (s.pc (.client t)) := rfl
    rw [hrole, hclose, role, onPort_self]
    rfl
  have hclosed : Meets (s.port p).event copollClosed := closedBit_reach h p (.inl hstands)
  have hclosed₂ := closed_reach h hclosed ((Reach.next _ .init hok hs).trans h₂)
  exact .inr (shut_reach (h₁.trans h₂) p hclosed₂).1

/-- In every run in which each delivery on a closing port finds an empty queue, deliveries
leave closing ports closing or closed, and no send is accepted after a close has stored
`COPORT_CLOSING`. -/
theorem delivery_never_reopens (h : Reach sysStep DrainedDelivery initSys s) :
    (∀ x s', DrainedDelivery s (.run x) → sysStep s (.run x) = some s' → KeepsClosing s s' x) ∧
    (∀ t p s', ClosingStore s t p → sysStep s (.run (.client t)) = some s' →
      SendsRefused DrainedDelivery p s') := by
  refine ⟨fun x s' hok hs => keepsClosing_of_drained hok hs, fun t p s' hclose hs => ?_⟩
  refine sendsRefused_of_closingStore h hclose hs ?_
  intro i nEvents q hpc
  rw [show (Act.run (.client t)).party = .client t from rfl, hclose] at hpc
  cases hpc

end System

/-- A close on an untouched port, up to its store of `COPORT_CLOSING`. -/
theorem delivery_never_reopens_close :
    ∃ s s', Reach sysStep DrainedDelivery initSys s ∧ ClosingStore s 0 0 ∧
      sysStep s (.run (.client 0)) = some s' ∧ SendsRefused DrainedDelivery 0 s' := by
  have hreach : Reach sysStep DrainedDelivery initSys _ :=
    .next (.run (.client 0)) (.next (.run (.client 0)) (.next (.run (.client 0))
      (.next (.call 0 (.coclose 0)) .init nofun rfl) nofun rfl) nofun rfl) nofun rfl
  exact ⟨_, _, hreach, rfl, rfl, (delivery_never_reopens hreach).2 0 0 _ rfl rfl⟩

/-! ### A run that reopens a port -/

/-- Client 0 sends, and client 1 receives but has not come to its `copoll_notify` yet. Client 2
polls for `COPOLL_IN` and sleeps. Client 0 sends again, which queues an event and leaves
`COPORT_DONE` for the notifier. The `copoll_notify` of client 1 finds no listener for
`COPOLL_OUT` and opens the port. -/
def earlyOpenRun : List Act :=
  .call 0 (.cosend 0 oneByte 1) :: runs (.client 0) 5 ++
  .call 1 (.corecv 0) :: runs (.client 1) 4 ++
  .call 2 (.slopoll [⟨0, copollIn⟩] (-1)) :: runs (.client 2) 8 ++
  .call 0 (.cosend 0 oneByte 1) :: runs (.client 0) 7 ++
  runs (.client 1) 2

/-- Client 3 closes the open port. The next step is its store of `COPORT_CLOSING`. -/
def closeRun : List Act := earlyOpenRun ++ .call 3 (.coclose 0) :: runs (.client 3) 3

/-- The close is finished, and the notifier takes the closing port. The next step is the work
of the delivery. -/
def closingDeliveryRun : List Act :=
  closeRun ++ .run (.client 3) :: .wake notifier0 :: runs notifier0 4

/-- The rest of the run, from the store of the close on: the delivery opens the port, client 4
receives, and client 5 takes the port to send. -/
def acceptedRun : List Act :=
  Act.wake notifier0 :: runs notifier0 6 ++ Act.call 4 (.corecv 0) :: runs (.client 4) 3 ++
  [Act.call 5 (.cosend 0 oneByte 1), Act.run (.client 5)]

/-- A delivery finds `COPORT_CLOSING` and a message, and goes on to store `COPORT_OPEN`. A send
that begins after the close is accepted. -/
theorem delivery_reopens :
    (∃ s s', Reach sysStep anyAct initSys s ∧ sysStep s (.run notifier0) = some s' ∧
      ¬KeepsClosing s s' notifier0) ∧
    (∃ s s', Reach sysStep anyAct initSys s ∧ ClosingStore s 3 0 ∧
      sysStep s (.run (.client 3)) = some s' ∧ ¬SendsRefused anyAct 0 s') := by
  constructor
  · -- The step after `closingDeliveryRun` is the work of the delivery.
    obtain ⟨s, hrun, hreach⟩ := exists_reach_of_isSome sysStep closingDeliveryRun initSys rfl
    have hpc : s.pc notifier0 = .deliverLocked 0 1 0 .coportClosing :=
      eq_of_map_runFrom (fun s => s.pc notifier0) hrun rfl
    have hstore : (sysStep s (.run notifier0)).map (fun s' => (s'.pc notifier0, s'.aborted)) =
        some (.release 0 .coportOpen (.deliver 1 1), none) :=
      eq_of_map_runFrom (fun s => (sysStep s (.run notifier0)).map
        fun s' => (s'.pc notifier0, s'.aborted)) hrun rfl
    obtain ⟨s', hs', hpair⟩ := Option.map_eq_some_iff.mp hstore
    obtain ⟨hpc', hab⟩ := Prod.mk.inj hpair
    refine ⟨s, s', hreach, hs', fun hkeeps => ?_⟩
    obtain ⟨status, hstatus, hor⟩ := hkeeps 0 1 0 hpc hab
    rw [hpc'] at hstatus
    cases hstatus
    obtain hclosing | ⟨hclosed, -⟩ := hor
    · cases hclosing
    · cases hclosed
  · -- The step after `closeRun` is the store of the close, and `acceptedRun` goes on from there.
    obtain ⟨s, hrun, hreach⟩ := exists_reach_of_isSome sysStep closeRun initSys rfl
    have hclose : s.pc (.client 3) = .release 0 .coportClosing (.answer (.reply .closed)) :=
      eq_of_map_runFrom (fun s => s.pc (.client 3)) hrun rfl
    have hrest : ((sysStep s (.run (.client 3))).bind fun s' =>
        (runFrom sysStep s' acceptedRun).map
          fun t => (t.pc (.client 5), decide (t.port 0).sendRefused)) =
        some (.sendLocked 0 oneByte 1, false) :=
      eq_of_map_runFrom (fun s => (sysStep s (.run (.client 3))).bind fun s' =>
        (runFrom sysStep s' acceptedRun).map
          fun t => (t.pc (.client 5), decide (t.port 0).sendRefused)) hrun rfl
    obtain ⟨s', hs', hmap⟩ := Option.bind_eq_some_iff.mp hrest
    obtain ⟨t, ht, hpair⟩ := Option.map_eq_some_iff.mp hmap
    obtain ⟨hpc, hrefused⟩ := Prod.mk.inj hpair
    refine ⟨s, s', hreach, hclose, hs', fun hall => ?_⟩
    have := hall t (reach_of_runFrom _ _ _ ht) (.client 5) oneByte 1 hpc
    exact absurd this (of_decide_eq_false hrefused)

end Comsg.Proofs.Ipcd
