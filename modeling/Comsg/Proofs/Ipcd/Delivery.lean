import Comsg.Ipcd.Delivery
import Comsg.Proofs.Ipcd.Fifo

/-!
# `Comsg.Proofs.Ipcd.Delivery`: does each message reach one receiver?

`cocarrier_recv` gives the slot it takes back to the ring before it has read the slot. A
send that fills this slot in between is read in place of the message that was taken, and its
own slot is marked received while it is still queued. `overwritten_before_read` is such a
run: the ring is full, one receive takes a slot, the next send writes it, the receive reads
it.

`ReadBeforeReuse` excludes exactly that step: a send is accepted only when no receive is
still to read the slot `end`. `exactly_once_of_readBeforeReuse` proves that delivery is exact
in every run that keeps to it. The invariant `Consistent` says where the message of a receive in
progress is: in a slot outside the window, unchanged since it was taken.
-/

set_option autoImplicit false

namespace Comsg.Proofs.Ipcd

open Comsg.Lib
open Comsg.Ipcd

/-- Exact delivery. The slots hold the messages accepted and not yet taken. The receive
number `k`, counted by locked sections, returns the accepted message number `k`, which was
the head of the queue when that section ran. No queued slot is marked received. -/
structure ExactlyOnce (s : Carrier) : Prop where
  taken_le : s.taken.length ≤ s.accepted.length
  slots : ringList cocarrierSize s.port.start s.port.length (fun i => (s.port.buf i).msg)
    = s.accepted.drop s.taken.length
  returned : ∀ (k t : Nat) (m : Message), s.taken[k]? = some (t, some m) → s.accepted[k]? = some m
  not_recvd : ∀ i < s.port.length,
    (s.port.buf ((s.port.start + i) % cocarrierSize)).recvd = false

/-- A send is accepted only when the slot it writes has been read by the receive that took
it. -/
def ReadBeforeReuse (s : Carrier) : CarrierAct → Prop
  | .send _ => ¬s.port.sendRefused → ∀ t ticket, s.pending t ≠ some (s.port.end_, ticket)
  | _       => True

/-- The receive of `t` that took slot `index` as number `ticket` has not read it yet. Its
message is still there, and the slot is outside the window. -/
structure InProgress (s : Carrier) (t index ticket : Nat) : Prop where
  entry : s.taken[ticket]? = some (t, none)
  message : s.accepted[ticket]? = some (s.port.buf index).msg
  outside : ∀ i < s.port.length, (s.port.start + i) % cocarrierSize ≠ index

/-- The invariant of the runs that read before reuse. -/
structure Consistent (s : Carrier) : Prop where
  taken_le : s.taken.length ≤ s.accepted.length
  queued : Queued s.port (s.accepted.drop s.taken.length)
  returned : ∀ (k t : Nat) (m : Message), s.taken[k]? = some (t, some m) → s.accepted[k]? = some m
  inProgress : ∀ t index ticket, s.pending t = some (index, ticket) →
    InProgress s t index ticket

theorem Consistent.exactlyOnce {s : Carrier} (h : Consistent s) : ExactlyOnce s :=
  ⟨h.taken_le, h.queued.messages, h.returned, fun _ hi => h.queued.not_recvd hi⟩

theorem Consistent.lt_of_taken {s : Carrier} (h : Consistent s) {k : Nat}
    {e : Nat × Option Message} (hk : s.taken[k]? = some e) : k < s.accepted.length :=
  Nat.lt_of_lt_of_le (List.getElem?_eq_some_iff.mp hk).1 h.taken_le

theorem consistent_init : Consistent Carrier.init where
  taken_le := Nat.le_refl 0
  queued := RingHolds.empty cocarrierSize_pos _
  returned k t m h := by simp [Carrier.init] at h
  inProgress t index ticket h := by simp [Carrier.init] at h

/-- A change of the event mask or the status only. -/
theorem Consistent.of_ring_eq {s : Carrier} {port : Coport} (h : Consistent s)
    (hstart : port.start = s.port.start) (hend : port.end_ = s.port.end_)
    (hlen : port.length = s.port.length) (hbuf : port.buf = s.port.buf) :
    Consistent { s with port } where
  taken_le := h.taken_le
  queued := by
    have hq := h.queued
    unfold Queued at hq ⊢
    simp only [hstart, hend, hlen, hbuf]
    exact hq
  returned := h.returned
  inProgress t index ticket hp := by
    obtain ⟨hentry, hmsg, hout⟩ := h.inProgress t index ticket hp
    refine ⟨hentry, ?_, ?_⟩
    · simpa only [hbuf] using hmsg
    · simpa only [hlen, hstart] using hout

theorem consistent_send {s : Carrier} (msg : Message) (h : Consistent s)
    (hok : ReadBeforeReuse s (.send msg)) : Consistent (s.send msg) := by
  unfold Carrier.send
  split
  · -- A refused send changes the event mask and the status only.
    exact h.of_ring_eq rfl rfl rfl rfl
  · rename_i hroom
    have hlen : s.port.length < cocarrierSize := Nat.not_le.mp fun hle => hroom (Or.inl hle)
    have hdrop : (s.accepted ++ [msg]).drop s.taken.length
        = s.accepted.drop s.taken.length ++ [msg] :=
      List.drop_append_of_le_length h.taken_le
    refine ⟨?_, ?_, ?_, ?_⟩
    · simp only [List.length_append]
      exact Nat.le_add_right_of_le h.taken_le
    · simp only [hdrop]
      exact h.queued.enqueue hlen
    · intro k t m hk
      exact List.getElem?_append_left (h.lt_of_taken hk) ▸ h.returned k t m hk
    · intro t index ticket hp
      obtain ⟨hentry, hmsg, hout⟩ := h.inProgress t index ticket hp
      -- The one place where the condition on the run is used.
      have hne : index ≠ s.port.end_ := fun heq => hok hroom t ticket (heq ▸ hp)
      refine ⟨hentry, ?_, ?_⟩
      · have hslot : ((s.port.enqueue msg).setStatus .coportDone).buf index = s.port.buf index :=
          Function.update_of_ne hne _ _
        rw [hslot]
        exact List.getElem?_append_left (h.lt_of_taken hentry) ▸ hmsg
      · -- The window grows by the slot `end`, which is not `index`.
        intro i hi heq
        rcases Nat.lt_succ_iff_lt_or_eq.mp hi with hi | rfl
        · exact hout i hi heq
        · exact hne (heq.symm.trans h.queued.stop_eq.symm)

theorem consistent_take {s : Carrier} (t : Nat) (h : Consistent s) (hidle : s.pending t = none) :
    Consistent (s.take t) := by
  unfold Carrier.take
  split
  · exact h.of_ring_eq rfl rfl rfl rfl
  · rename_i hsome
    have hpos : 0 < s.port.length := Nat.pos_of_ne_zero fun hz => hsome (Or.inl hz)
    have hlen := h.queued.length_eq
    rw [List.length_drop] at hlen
    have hlt : s.taken.length < s.accepted.length := by omega
    -- The head of the queue is the accepted message whose number is the new ticket.
    have hcons := List.drop_eq_getElem_cons hlt
    have hq := h.queued
    rw [hcons] at hq
    obtain ⟨hhead, hrest⟩ := RingHolds.pop hq
    refine ⟨?_, ?_, ?_, ?_⟩
    · simpa using Nat.succ_le_of_lt hlt
    · simp only [List.length_append, List.length_singleton]
      exact hrest
    · intro k t' m hk
      rw [List.getElem?_append] at hk
      split at hk
      · exact h.returned k t' m hk
      · -- The new entry has no message yet.
        cases hd : k - s.taken.length <;> simp [hd] at hk
    · intro t' index ticket hp
      by_cases ht : t' = t
      · subst ht
        simp only [Function.update_self, Option.some.injEq, Prod.mk.injEq] at hp
        obtain ⟨rfl, rfl⟩ := hp
        refine ⟨by simp, ?_, ?_⟩
        · rw [List.getElem?_eq_getElem hlt]
          exact congrArg some (congrArg Prod.fst hhead).symm
        · -- The window now starts one slot further, and does not come round to `start`.
          intro i hi
          have hi' : i < s.port.length - 1 := hi
          have hle := h.queued.len_le
          exact ringIndex_succ_ne h.queued.start_lt (by omega)
      · simp only [Function.update_of_ne ht] at hp
        obtain ⟨hentry, hmsg, hout⟩ := h.inProgress t' index ticket hp
        refine ⟨?_, hmsg, ?_⟩
        · rw [List.getElem?_append_left (List.getElem?_eq_some_iff.mp hentry).1]
          exact hentry
        · -- The new window is part of the old one.
          intro i hi heq
          have hi' : i < s.port.length - 1 := hi
          refine hout (i + 1) (by omega) ?_
          rw [← heq]
          show _ = ((s.port.start + 1) % cocarrierSize + i) % cocarrierSize
          rw [Nat.mod_add_mod]
          congr 1
          omega

theorem consistent_read {s : Carrier} {t index ticket : Nat} (h : Consistent s)
    (hp : s.pending t = some (index, ticket)) : Consistent (s.read t index ticket) := by
  obtain ⟨hentry, hmsg, hout⟩ := h.inProgress t index ticket hp
  have hticket := (List.getElem?_eq_some_iff.mp hentry).1
  -- Marking a slot leaves every message where it is.
  have hbuf : ∀ j, ((s.port.markRecvd index).buf j).msg = (s.port.buf j).msg := by
    intro j
    by_cases hj : j = index
    · subst hj
      simp [Coport.markRecvd]
    · simp [Coport.markRecvd, hj]
  unfold Carrier.read
  refine ⟨?_, ?_, ?_, ?_⟩
  · simpa using h.taken_le
  · simp only [List.length_set]
    -- The slot that is marked is outside the window.
    refine h.queued.congr fun i hi => ?_
    exact congrArg slotView (Function.update_of_ne (hout i hi) _ _)
  · intro k t' m hk
    rw [List.getElem?_set] at hk
    split at hk
    · rename_i heq
      subst heq
      cases hk
      exact hmsg
    · exact h.returned k t' m hk
  · intro t' index' ticket' hp'
    by_cases ht : t' = t
    · subst ht
      simp at hp'
    · simp only [Function.update_of_ne ht] at hp'
      obtain ⟨hentry', hmsg', hout'⟩ := h.inProgress t' index' ticket' hp'
      refine ⟨?_, ?_, hout'⟩
      · -- Two receives in progress have different numbers.
        have hne : ticket ≠ ticket' := by
          rintro rfl
          rw [hentry] at hentry'
          cases hentry'
          exact ht rfl
        rw [List.getElem?_set_ne hne]
        exact hentry'
      · rw [hbuf]
        exact hmsg'

/-- One step keeps the invariant, when a send waits for the slot it writes to be read. -/
theorem consistent_step {s s' : Carrier} (a : CarrierAct) (h : Consistent s)
    (hok : ReadBeforeReuse s a) (hs : s.step a = some s') : Consistent s' := by
  cases a with
  | send msg =>
    simp only [Carrier.step] at hs
    split at hs
    · cases hs
      exact consistent_send msg h hok
    · cases hs
  | take t =>
    simp only [Carrier.step] at hs
    split at hs
    · rename_i hcond
      cases hs
      exact consistent_take t h hcond.2
    · cases hs
  | read t =>
    obtain ⟨⟨index, ticket⟩, hp, rfl⟩ := Option.map_eq_some_iff.mp hs
    exact consistent_read h hp
  | notify =>
    -- `copoll_notify` stores `COPORT_OPEN` over `COPORT_DONE`, and the ring stays as it is.
    simp only [Carrier.step] at hs
    split at hs <;> cases hs
    · exact h.of_ring_eq rfl rfl rfl rfl
    · exact h

/-- Delivery is exact in every state of every run in which no send is accepted into a slot
that a receive has taken and not read. -/
theorem exactly_once_of_readBeforeReuse (s : Carrier)
    (h : Reach Carrier.step ReadBeforeReuse Carrier.init s) : ExactlyOnce s :=
  (h.invariant consistent_init fun _ a _ _ hinv hok hs =>
    consistent_step a hinv hok hs).exactlyOnce

/-- A message with the one byte `b`. -/
def byteMsg (b : UInt8) : Message :=
  { buf := some ⟨0, [b]⟩, attachments := none, nattachments := 0 }

/-- One message sent and received. The receive reads its slot before the ring comes round. -/
theorem exactly_once_one_message :
    ∃ s, Reach Carrier.step ReadBeforeReuse Carrier.init s ∧
      s.taken = [(0, some (byteMsg 1))] ∧ ExactlyOnce s := by
  have hsend : ReadBeforeReuse Carrier.init (.send (byteMsg 1)) :=
    fun _ t ticket h => by cases h
  have hreach : Reach Carrier.step ReadBeforeReuse Carrier.init _ :=
    .next (.read 0) (.next (.take 0) (.next .notify (.next (.send (byteMsg 1)) .init hsend rfl)
      trivial rfl) trivial rfl) trivial rfl
  exact ⟨_, hreach, rfl, exactly_once_of_readBeforeReuse _ hreach⟩

/-! ### The overwritten slot -/

/-- `n` sends of the same message, each with its `copoll_notify`. -/
def fillRun (msg : Message) : Nat → List CarrierAct
  | 0     => []
  | n + 1 => fillRun msg n ++ [.send msg, .notify]

/-- The state after `n` sends into a fresh port. -/
private theorem fillRun_state (msg : Message) :
    ∀ n ≤ cocarrierSize, ∃ s, runFrom Carrier.step Carrier.init (fillRun msg n) = some s ∧
      Idle s.port (List.replicate n msg) false ∧ s.port.start = 0 ∧
      s.accepted = List.replicate n msg ∧ s.taken = [] ∧ s.pending = fun _ => none := by
  intro n
  induction n with
  | zero =>
    intro _
    exact ⟨Carrier.init, rfl, idle_init, rfl, rfl, rfl, rfl⟩
  | succ n ih =>
    intro hn
    obtain ⟨s, hrun, hidle, hstart, hacc, htaken, hpend⟩ := ih (Nat.le_of_succ_le hn)
    have hroom : (List.replicate n msg).length < cocarrierSize := by
      rw [List.length_replicate]
      exact hn
    -- The send is accepted, and its notification opens the port for the next one.
    have hsend : s.send msg
        = { s with
            port := (s.port.enqueue msg).setStatus .coportDone
            accepted := s.accepted ++ [msg] } := by
      rw [Carrier.send, if_neg (hidle.not_sendRefused hroom)]
    refine ⟨{ s with
      port := (s.port.enqueue msg).setStatus .coportOpen
      accepted := s.accepted ++ [msg] }, ?_, ?_, hstart, ?_, htaken, hpend⟩
    · rw [fillRun, runFrom_append _ _ hrun]
      simp [runFrom, Carrier.step, hidle.status_open rfl, hsend, Coport.setStatus]
    · rw [List.replicate_succ']
      exact hidle.enqueue hroom msg
    · rw [hacc, List.replicate_succ']

/-- The ring is filled, a receive takes slot 0, one more message is sent, the receive
reads. -/
def overwriteRun : List CarrierAct :=
  fillRun (byteMsg 1) cocarrierSize ++
    [CarrierAct.take 0, CarrierAct.send (byteMsg 2), CarrierAct.read 0]

/-- In `overwriteRun` the only receive returns the message sent last. The message at the head
of the queue when it took its slot is lost, and delivery is not exact. -/
theorem overwritten_before_read :
    ∃ s, runFrom Carrier.step Carrier.init overwriteRun = some s ∧
      s.taken = [(0, some (byteMsg 2))] ∧ s.accepted[0]? = some (byteMsg 1) ∧
      ¬ExactlyOnce s := by
  obtain ⟨s, hrun, hidle, hstart, hacc, htaken, hpend⟩ :=
    fillRun_state (byteMsg 1) cocarrierSize (Nat.le_refl _)
  have hlen : s.port.length = cocarrierSize := by
    rw [← hidle.queued.length_eq, List.length_replicate]
  have hend : s.port.end_ = 0 := by
    rw [hidle.queued.stop_eq, hstart, hlen]
    rfl
  -- The ring is full, so the receive is accepted, and the slot it gives back makes room for
  -- the send.
  have htake : ¬s.port.recvRefused := by
    rintro (hz | hin)
    · rw [hlen] at hz
      exact absurd hz (by decide)
    · exact hin (hidle.in_iff.mpr (by rw [hlen]; exact cocarrierSize_pos))
  have hsend : ¬((s.port.dequeue false).setStatus .coportOpen).sendRefused := by
    rintro (hfull | hout)
    · have hfull' : cocarrierSize ≤ s.port.length - 1 := hfull
      rw [hlen] at hfull'
      exact absurd hfull' (by decide)
    · exact hout ((takenEvent_out _ _ _).mpr (Or.inl rfl))
  -- The final state, written out.
  have hstate : runFrom Carrier.step Carrier.init overwriteRun = some
      { port := (((s.port.dequeue false).setStatus .coportOpen).enqueue
          (byteMsg 2)).setStatus .coportDone |>.markRecvd 0
        pending := Function.update (Function.update s.pending 0 (some (0, 0))) 0 none
        accepted := s.accepted ++ [byteMsg 2]
        taken := [(0, some (byteMsg 2))] } := by
    rw [overwriteRun, runFrom_append _ _ hrun]
    simp [runFrom, Carrier.step, hidle.status_open rfl, hpend, Carrier.take, if_neg htake,
      hstart, htaken, Carrier.send, if_neg hsend, Carrier.read]
    simp [Coport.setStatus, Coport.enqueue, Coport.dequeue, hend]
  have hhead : (s.accepted ++ [byteMsg 2])[0]? = some (byteMsg 1) := by
    rw [hacc, cocarrierSize_eq]
    rfl
  refine ⟨_, hstate, rfl, hhead, fun h => ?_⟩
  have hret := h.returned 0 0 (byteMsg 2) rfl
  rw [hhead] at hret
  exact absurd hret (by decide)

end Comsg.Proofs.Ipcd
