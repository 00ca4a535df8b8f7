import Comsg.Ipcd.Cocarrier
import Comsg.Proofs.Ipcd.Coport

/-!
# `Comsg.Proofs.Ipcd.Fifo`: a cocarrier is a bounded queue

Calls on one cocarrier run one at a time, from the state `init_coport` leaves, and no poller
is registered. `Idle port queue closed` is the state between two calls: the slots from
`start` hold `queue`, in order and not marked received, the two readiness bits agree with
the length, and `closed` says that the port was closed at some time.

Each call has one lemma for each way it can end. A send appends (`send_accepted`) or is
refused because the array is full, because the port is closing, or because it was closed and
reopened. A receive takes the head (`recv_taken`) or finds nothing (`recv_empty`). A close
takes an open port (`close_open`) or fails. A free touches no queued slot (`idle_free`).

`recv_empty` stores `COPORT_OPEN` whatever it found. A port that was closed and drained is
then open again, with an empty queue and without `COPOLL_OUT`. This is the second case of
`Idle.status_closed`. It is why `COPOLL_OUT` stays clear after a close: a receive that could
set the bit again would need a message, and no send is accepted without the bit.

`cocarrier_refines_fifo` assembles the lemmas by induction over the calls.
-/

set_option autoImplicit false

namespace Comsg.Proofs.Ipcd

open Comsg.Lib
open Comsg.Ipcd

/-- What the queue says about a slot: its message, and whether it was received. -/
def slotView (c : CocarrierMessage) : Message × Bool := (c.msg, c.recvd)

/-- The slots of the port hold `queue`, none of it received. -/
def Queued (port : Coport) (queue : List Message) : Prop :=
  RingHolds cocarrierSize port.start port.length port.end_
    (fun i => slotView (port.buf i)) (queue.map fun m => (m, false))

namespace Queued

variable {port : Coport} {queue : List Message} {m : Message}

theorem length_eq (h : Queued port queue) : queue.length = port.length := by
  simpa using RingHolds.length_eq h

/-- The messages of the window, read off the slots. -/
theorem messages (h : Queued port queue) :
    ringList cocarrierSize port.start port.length (fun i => (port.buf i).msg) = queue := by
  have hmap := congrArg (List.map Prod.fst) h.contents
  rw [map_ringList] at hmap
  simpa [slotView, Function.comp_def] using hmap

/-- A queued slot is not marked received. -/
theorem not_recvd (h : Queued port queue) {i : Nat} (hi : i < port.length) :
    (port.buf ((port.start + i) % cocarrierSize)).recvd = false := by
  have hget := RingHolds.getElem? h hi
  rw [List.getElem?_map, Option.map_eq_some_iff] at hget
  obtain ⟨m, -, heq⟩ := hget
  exact (congrArg Prod.snd heq).symm

theorem enqueue (h : Queued port queue) (hlen : port.length < cocarrierSize) :
    Queued (port.enqueue m) (queue ++ [m]) := by
  have hpush := RingHolds.push (x := (m, false)) h hlen
  have hcells : (fun i => slotView ((port.enqueue m).buf i))
      = Function.update (fun i => slotView (port.buf i)) port.end_ (m, false) := by
    funext i
    by_cases hi : i = port.end_
    · subst hi
      simp [Coport.enqueue, slotView]
    · simp [Coport.enqueue, hi]
  unfold Queued
  rw [hcells, List.map_append]
  exact hpush

/-- The head is in the slot `start`. Taking it and marking its slot keeps the rest queued:
the slot has left the window. -/
theorem dequeue (h : Queued port (m :: queue)) (closing : Bool) :
    (port.buf port.start).msg = m ∧
      Queued ((port.dequeue closing).markRecvd port.start) queue := by
  obtain ⟨hhead, hrest⟩ := RingHolds.pop h
  have hlen := h.length_eq
  rw [List.length_cons] at hlen
  refine ⟨congrArg Prod.fst hhead, hrest.congr fun i hi => ?_⟩
  -- The mark goes to the old start, which no offset of the shorter window names.
  have hne : ((port.start + 1) % cocarrierSize + i) % cocarrierSize ≠ port.start :=
    ringIndex_succ_ne h.start_lt (by have := h.len_le; omega)
  have hslot : ((port.dequeue closing).markRecvd port.start).buf
      (((port.start + 1) % cocarrierSize + i) % cocarrierSize)
      = port.buf (((port.start + 1) % cocarrierSize + i) % cocarrierSize) :=
    Function.update_of_ne hne _ _
  exact congrArg slotView hslot

/-- Writes to slots that are marked received leave the queue alone. -/
theorem update_recvd (h : Queued port queue) {i : Nat} (c : CocarrierMessage)
    (hi : (port.buf i).recvd = true) :
    Queued { port with buf := Function.update port.buf i c } queue := by
  refine h.congr fun j hj => ?_
  have hne : (port.start + j) % cocarrierSize ≠ i := by
    intro heq
    have hfalse := h.not_recvd hj
    rw [heq, hi] at hfalse
    exact absurd hfalse (by decide)
  exact congrArg slotView (Function.update_of_ne hne _ _)

end Queued

/-- The port between two calls. `queue` are the messages in it. `closed` says that a close
has succeeded at some time. -/
structure Idle (port : Coport) (queue : List Message) (closed : Bool) : Prop where
  queued : Queued port queue
  in_iff : Meets port.event copollIn ↔ 0 < port.length
  out_iff : Meets port.event copollOut ↔ port.length < cocarrierSize ∧ closed = false
  status_open : closed = false → port.status = .coportOpen
  status_closed : closed = true →
    port.status = .coportClosing ∨ port.status = .coportOpen ∧ port.length = 0
  silent : port.listeners = []

/-- No listener, no announcement: `copoll_notify` only turns `COPORT_DONE` into
`COPORT_OPEN`. -/
theorem copollNotify_silent {port : Coport} (h : port.listeners = []) (event : CoportEventmask) :
    copollNotify port event
      = (if port.status = .coportDone then port.setStatus .coportOpen else port, false) := by
  have hno : ¬port.announces event := fun ha => ha.1 h
  unfold copollNotify
  rw [if_neg hno]
  split <;> rfl

theorem idle_init : Idle initCoport [] false where
  queued := RingHolds.empty cocarrierSize_pos _
  in_iff := by decide
  out_iff := by decide
  status_open _ := rfl
  status_closed h := absurd h (by decide)
  silent := rfl

section
variable {port : Coport} {queue : List Message} {closed : Bool}

/-- Between two calls a port that is not open is closing. -/
theorem Idle.closing_of_not_open (h : Idle port queue closed) (hopen : port.status ≠ .coportOpen) :
    port.status = .coportClosing := by
  cases closed with
  | false => exact absurd (h.status_open rfl) hopen
  | true =>
    rcases h.status_closed rfl with hst | ⟨hst, -⟩
    · exact hst
    · exact absurd hst hopen

/-- The queue fields agree, and so does the event mask outside `bit`. -/
def SameQueue (port port' : Coport) (bit : CoportEventmask) : Prop :=
  port'.start = port.start ∧ port'.end_ = port.end_ ∧ port'.length = port.length ∧
    port'.buf = port.buf ∧ port'.event ||| bit = port.event ||| bit

theorem sameQueue_refl (port : Coport) (bit : CoportEventmask) : SameQueue port port bit :=
  ⟨rfl, rfl, rfl, rfl, rfl⟩

/-- A refused send or receive writes one error bit and the status. -/
theorem sameQueue_or (port : Coport) (status : CoportStatus) (bit : CoportEventmask) :
    SameQueue port { port with status, event := port.event ||| bit } bit :=
  ⟨rfl, rfl, rfl, rfl, by simp [BitVec.or_assoc]⟩

/-! ### The ways a send ends -/

/-- An open port that was never closed and is not full does not refuse a send. -/
theorem Idle.not_sendRefused (h : Idle port queue false) (hlen : queue.length < cocarrierSize) :
    ¬port.sendRefused := by
  have hlen' : port.length < cocarrierSize := h.queued.length_eq ▸ hlen
  rintro (hfull | hout)
  · exact absurd hlen' (Nat.not_lt.mpr hfull)
  · exact hout (h.out_iff.mpr ⟨hlen', rfl⟩)

/-- The port after an accepted send and its `copoll_notify`. -/
theorem Idle.enqueue (h : Idle port queue false) (hlen : queue.length < cocarrierSize)
    (msg : Message) : Idle ((port.enqueue msg).setStatus .coportOpen) (queue ++ [msg]) false := by
  have hlen' : port.length < cocarrierSize := h.queued.length_eq ▸ hlen
  have hq : Queued ((port.enqueue msg).setStatus .coportOpen) (queue ++ [msg]) :=
    h.queued.enqueue hlen'
  refine ⟨hq, ?_, ?_, fun _ => rfl, fun hc => absurd hc (by decide), h.silent⟩
  · simp [Coport.enqueue, Coport.setStatus]
  · simp only [Coport.enqueue, Coport.setStatus, sentEvent_out, h.out_iff, and_true]
    omega

/-- A send on a port that is open and not full appends its message. -/
theorem send_accepted (h : Idle port queue false) (hlen : queue.length < cocarrierSize)
    (msg : Message) (msgLen : Nat) :
    ∃ port', cocarrierSend port msg msgLen = some ⟨port', .sent msgLen, false⟩ ∧
      Idle port' (queue ++ [msg]) false := by
  have hnot : ¬(port.setStatus .coportBusy).sendRefused := h.not_sendRefused hlen
  refine ⟨(port.enqueue msg).setStatus .coportOpen, ?_, h.enqueue hlen msg⟩
  simp only [cocarrierSend, h.status_open rfl, if_neg hnot]
  rw [copollNotify_silent (by exact h.silent)]
  rfl

/-- A send on an open port that may not be written, because it is full or was closed before,
is refused with `EAGAIN`. -/
theorem send_refused (h : Idle port queue closed) (hopen : port.status = .coportOpen)
    (hno : closed = true ∨ queue.length = cocarrierSize) (msg : Message) (msgLen : Nat) :
    ∃ port', cocarrierSend port msg msgLen = some ⟨port', .err .eagain, false⟩ ∧
      Idle port' queue closed ∧ SameQueue port port' copollWerr := by
  -- A close has taken `COPOLL_OUT` away for good, so both causes show in the test.
  have hrefused : (port.setStatus .coportBusy).sendRefused := by
    rcases hno with rfl | hfull
    · exact Or.inr fun hout => absurd (h.out_iff.mp hout).2 (by decide)
    · exact Or.inl (by rw [← hfull, h.queued.length_eq]; exact Nat.le_refl _)
  refine ⟨(port.setStatus .coportBusy).refuseSend.setStatus .coportOpen, ?_, ?_,
    sameQueue_or port _ _⟩
  · simp only [cocarrierSend, hopen, if_pos hrefused]
  · -- The status is open again. On a closed port that needs an empty queue.
    refine ⟨h.queued, ?_, ?_, fun _ => rfl, fun hc => Or.inr ⟨rfl, ?_⟩, h.silent⟩
    · exact (or_werr_in _).trans h.in_iff
    · exact (or_werr_out _).trans h.out_iff
    · rcases h.status_closed hc with hst | ⟨-, hzero⟩
      · rw [hopen] at hst
        cases hst
      · exact hzero

/-- A send on a closing port fails with `EPIPE`. -/
theorem send_closing (hst : port.status = .coportClosing) (msg : Message) (msgLen : Nat) :
    cocarrierSend port msg msgLen = some ⟨port, .err .epipe, false⟩ := by
  simp only [cocarrierSend, hst]

/-! ### The ways a receive ends -/

/-- A receive on a port with a message takes the oldest one, and leaves the status it
found. -/
theorem recv_taken {m : Message} (h : Idle port (m :: queue) closed) :
    ∃ port', cocarrierRecv port = some ⟨port', .received m, false⟩ ∧
      Idle port' queue closed ∧ port'.status = port.status := by
  have hlen : 0 < port.length := by
    rw [← h.queued.length_eq]
    exact Nat.succ_pos _
  -- With a message queued, a closed port is still closing.
  have hst : port.status = if closed then .coportClosing else .coportOpen := by
    cases closed with
    | false => exact h.status_open rfl
    | true =>
      rcases h.status_closed rfl with hst | ⟨-, hzero⟩
      · exact hst
      · omega
  have hacq : recvAcquire port.status = some (port.status, closed) := by
    rw [hst]
    cases closed <;> rfl
  have hne : port.status ≠ .coportClosed := by
    rw [hst]
    cases closed <;> decide
  have hdone : port.status ≠ .coportDone := by
    rw [hst]
    cases closed <;> decide
  have hnot : ¬(port.setStatus .coportBusy).recvRefused := by
    rintro (hzero | hin)
    · exact absurd hzero (Nat.ne_of_gt hlen)
    · exact hin (h.in_iff.mpr hlen)
  obtain ⟨hmsg, hq⟩ := h.queued.dequeue closed
  have hlen' := h.queued.length_eq
  rw [List.length_cons] at hlen'
  have hle := h.queued.len_le
  refine ⟨((port.dequeue closed).markRecvd port.start), ?_, ⟨hq, ?_, ?_, ?_, ?_, h.silent⟩, rfl⟩
  · simp only [cocarrierRecv, if_neg hne, hacq, Option.map_some, if_neg hnot]
    rw [copollNotify_silent (by exact h.silent)]
    simp [Coport.setStatus, Coport.dequeue, Coport.markRecvd, hdone, hmsg]
  · simp only [Coport.markRecvd, Coport.dequeue, takenEvent_in, h.in_iff]
    omega
  · simp only [Coport.markRecvd, Coport.dequeue, takenEvent_out, h.out_iff]
    cases closed with
    | false => simp only [true_or, and_true, true_iff]; omega
    | true => simp
  · intro hc
    exact h.status_open hc
  · intro hc
    subst hc
    exact Or.inl hst

/-- A receive on an empty port is refused with `EAGAIN` and leaves the port open. -/
theorem recv_empty (h : Idle port [] closed) :
    ∃ port', cocarrierRecv port = some ⟨port', .err .eagain, false⟩ ∧
      Idle port' [] closed ∧ SameQueue port port' copollRerr ∧
      port'.status = .coportOpen := by
  have hzero : port.length = 0 := h.queued.length_eq.symm
  -- Either way the acquisition loop ends: it takes an open port and a closing one.
  have hst : port.status = .coportClosing ∨ port.status = .coportOpen := by
    cases closed with
    | false => exact Or.inr (h.status_open rfl)
    | true => exact (h.status_closed rfl).imp_right And.left
  have hne : port.status ≠ .coportClosed := by
    rcases hst with hst | hst <;> rw [hst] <;> decide
  obtain ⟨found, hacq⟩ : ∃ found, recvAcquire port.status = some found := by
    rcases hst with hst | hst <;> rw [hst] <;> exact ⟨_, rfl⟩
  have hrefused : (port.setStatus .coportBusy).recvRefused := Or.inl hzero
  refine ⟨(port.setStatus .coportBusy).refuseRecv.setStatus .coportOpen, ?_, ?_,
    sameQueue_or port _ _, rfl⟩
  · simp only [cocarrierRecv, if_neg hne, hacq, Option.map_some, if_pos hrefused]
  · refine ⟨h.queued, ?_, ?_, fun _ => rfl, fun _ => Or.inr ⟨rfl, hzero⟩, h.silent⟩
    · exact (or_rerr_in _).trans h.in_iff
    · exact (or_rerr_out _).trans h.out_iff

/-! ### The ways a close ends, and a free -/

/-- A close of an open port succeeds. -/
theorem close_open (h : Idle port queue closed) (hopen : port.status = .coportOpen) :
    ∃ port', coportClose port = some ⟨port', .closed, false⟩ ∧ Idle port' queue true ∧
      port'.status = .coportClosing := by
  refine ⟨((port.setStatus .coportBusy).markClosed).setStatus .coportClosing, ?_, ?_, rfl⟩
  · simp only [coportClose, hopen]
  · refine ⟨h.queued, ?_, ?_, fun hc => absurd hc (by decide), fun _ => Or.inl rfl, h.silent⟩
    · exact (markClosed_in _).trans h.in_iff
    · exact ⟨fun hout => absurd hout (markClosed_out _), fun hc => absurd hc.2 (by decide)⟩

/-- A close of a closing port fails with `EPIPE`. -/
theorem close_closing (hst : port.status = .coportClosing) :
    coportClose port = some ⟨port, .err .epipe, false⟩ := by
  simp only [coportClose, hst]

/-- A free writes at most one slot, and that slot was received. -/
theorem idle_free (h : Idle port queue closed) (buf : MsgBuf) :
    Idle (freeComsg port buf).port queue closed ∧
      (freeComsg port buf).port.status = port.status := by
  unfold freeComsg
  split
  · -- The scan stops only at a slot that was received, which is outside the window.
    rename_i i hfind
    have hfree : freeable port buf i = true := List.find?_some hfind
    have hrecvd : (port.buf i).recvd = true := by
      simp only [freeable, Bool.and_eq_true] at hfree
      exact hfree.1.1
    exact ⟨⟨h.queued.update_recvd _ hrecvd, h.in_iff, h.out_iff, h.status_open,
      h.status_closed, h.silent⟩, rfl⟩
  · exact ⟨h, rfl⟩

end

/-! ### Runs -/

/-- The log of a run against the port it left: what was accepted is what was received,
followed by what is queued. -/
def Accounted (port : Coport) (log : List (Call × Reply)) : Prop :=
  ∃ queue, accepted log = received log ++ queue ∧ Idle port queue (everClosed log)

theorem Accounted.idle {port : Coport} {log : List (Call × Reply)} (h : Accounted port log) :
    Idle port (outstanding log) (everClosed log) := by
  obtain ⟨queue, hacc, hidle⟩ := h
  have hout : outstanding log = queue := by
    rw [outstanding, hacc, List.drop_left]
  rwa [hout]

theorem accepted_snoc (log : List (Call × Reply)) (e : Call × Reply) :
    accepted (log ++ [e]) = accepted log ++ (acceptedOf e).toList := by
  cases h : acceptedOf e <;> simp [accepted, h]

theorem received_snoc (log : List (Call × Reply)) (e : Call × Reply) :
    received (log ++ [e]) = received log ++ (receivedOf e).toList := by
  cases h : receivedOf e <;> simp [received, h]

/-- The log grows by a call that accepts nothing. -/
theorem accepted_snoc_none {log : List (Call × Reply)} {e : Call × Reply}
    (h : acceptedOf e = none) : accepted (log ++ [e]) = accepted log := by
  simp [accepted_snoc, h]

/-- The log grows by a call that receives nothing. -/
theorem received_snoc_none {log : List (Call × Reply)} {e : Call × Reply}
    (h : receivedOf e = none) : received (log ++ [e]) = received log := by
  simp [received_snoc, h]

theorem everClosed_snoc (log : List (Call × Reply)) (e : Call × Reply) :
    everClosed (log ++ [e]) = (everClosed log || e == (.coclose, .closed)) := by
  simp [everClosed]

section
variable {port port' : Coport} {log : List (Call × Reply)} {e : Call × Reply}
  {queue queue' : List Message}

/-- The log grows by one call. What the call has accepted joins the queue at its end, and what
it has received leaves it at its head. -/
theorem Accounted.snoc (hacc : accepted log = received log ++ queue)
    (hqueue : queue ++ (acceptedOf e).toList = (receivedOf e).toList ++ queue')
    (hidle : Idle port' queue' (everClosed (log ++ [e]))) : Accounted port' (log ++ [e]) := by
  refine ⟨queue', ?_, hidle⟩
  rw [accepted_snoc, received_snoc, hacc, List.append_assoc, hqueue, List.append_assoc]

/-- The log grows by a call that fails, or by a free. -/
theorem Accounted.snoc_quiet (hacc : accepted log = received log ++ queue)
    (hidle : Idle port' queue (everClosed log)) (ha : acceptedOf e = none)
    (hr : receivedOf e = none) (hc : e ≠ (.coclose, .closed)) :
    Accounted port' (log ++ [e]) := by
  have hsame : everClosed (log ++ [e]) = everClosed log := by
    simp [everClosed_snoc, hc]
  exact .snoc hacc (by simp [ha, hr]) (hsame ▸ hidle)

theorem accounted_send (hacc : accepted log = received log ++ queue)
    (hidle : Idle port queue (everClosed log)) (msg : Message) (msgLen : Nat) :
    ∃ port' reply, callStep port (.cosend msg msgLen) = some (port', reply) ∧
      Accounted port' (log ++ [(Call.cosend msg msgLen, reply)]) := by
  by_cases hopen : port.status = .coportOpen
  · by_cases hroom : everClosed log = false ∧ queue.length < cocarrierSize
    · rw [hroom.1] at hidle
      obtain ⟨port', hcall, hidle'⟩ := send_accepted hidle hroom.2 msg msgLen
      have hsame : everClosed (log ++ [(Call.cosend msg msgLen, Reply.sent msgLen)]) = false := by
        simp [everClosed_snoc, hroom.1]
      exact ⟨port', .sent msgLen, by simp [callStep, callOutcome, hcall],
        .snoc hacc rfl (hsame ▸ hidle')⟩
    · -- A port that was closed has lost `COPOLL_OUT`, and a full one has no room.
      have hno : everClosed log = true ∨ queue.length = cocarrierSize := by
        have hle := hidle.queued.len_le
        rw [← hidle.queued.length_eq] at hle
        cases hc : everClosed log with
        | true => exact Or.inl rfl
        | false => exact Or.inr (Nat.le_antisymm hle (Nat.not_lt.mp fun hlt => hroom ⟨hc, hlt⟩))
      obtain ⟨port', hcall, hidle', -⟩ := send_refused hidle hopen hno msg msgLen
      exact ⟨port', .err .eagain, by simp [callStep, callOutcome, hcall],
        .snoc_quiet hacc hidle' rfl rfl (by simp)⟩
  · have hst := hidle.closing_of_not_open hopen
    exact ⟨port, .err .epipe, by simp [callStep, callOutcome, send_closing hst],
      .snoc_quiet hacc hidle rfl rfl (by simp)⟩

theorem accounted_recv (hacc : accepted log = received log ++ queue)
    (hidle : Idle port queue (everClosed log)) :
    ∃ port' reply, callStep port .corecv = some (port', reply) ∧
      Accounted port' (log ++ [(Call.corecv, reply)]) := by
  cases queue with
  | nil =>
    obtain ⟨port', hcall, hidle', -⟩ := recv_empty hidle
    exact ⟨port', .err .eagain, by simp [callStep, callOutcome, hcall],
      .snoc_quiet hacc hidle' rfl rfl (by simp)⟩
  | cons m queue =>
    obtain ⟨port', hcall, hidle', -⟩ := recv_taken hidle
    have hsame : everClosed (log ++ [(Call.corecv, Reply.received m)]) = everClosed log := by
      simp [everClosed_snoc]
    exact ⟨port', .received m, by simp [callStep, callOutcome, hcall],
      .snoc hacc (List.append_nil _) (hsame ▸ hidle')⟩

theorem accounted_close (hacc : accepted log = received log ++ queue)
    (hidle : Idle port queue (everClosed log)) :
    ∃ port' reply, callStep port .coclose = some (port', reply) ∧
      Accounted port' (log ++ [(Call.coclose, reply)]) := by
  by_cases hopen : port.status = .coportOpen
  · obtain ⟨port', hcall, hidle', -⟩ := close_open hidle hopen
    have htrue : everClosed (log ++ [(Call.coclose, Reply.closed)]) = true := by
      simp [everClosed_snoc]
    exact ⟨port', .closed, by simp [callStep, callOutcome, hcall],
      .snoc hacc (List.append_nil _) (htrue ▸ hidle')⟩
  · have hst := hidle.closing_of_not_open hopen
    exact ⟨port, .err .epipe, by simp [callStep, callOutcome, close_closing hst],
      .snoc_quiet hacc hidle rfl rfl (by simp)⟩

end

/-- Every call returns, and keeps the log in step with the port. -/
theorem accounted_step (port : Coport) (log : List (Call × Reply)) (c : Call)
    (h : Accounted port log) :
    ∃ port' reply, callStep port c = some (port', reply) ∧
      Accounted port' (log ++ [(c, reply)]) := by
  obtain ⟨queue, hacc, hidle⟩ := h
  cases c with
  | cosend msg msgLen => exact accounted_send hacc hidle msg msgLen
  | corecv => exact accounted_recv hacc hidle
  | coclose => exact accounted_close hacc hidle
  | comsgFree buf =>
    obtain ⟨hidle', -⟩ := idle_free hidle buf
    exact ⟨_, _, rfl, .snoc_quiet hacc hidle' rfl rfl (by simp)⟩

/-- The port after a run with the log `log`, seen as a bounded queue. -/
structure FifoView (port : Coport) (log : List (Call × Reply)) : Prop where
  length_le : port.length ≤ cocarrierSize
  end_eq : port.end_ = (port.start + port.length) % cocarrierSize
  order : received log ++ outstanding log = accepted log
  slots : ringList cocarrierSize port.start port.length (fun i => (port.buf i).msg)
    = outstanding log
  in_iff : Meets port.event copollIn ↔ 0 < port.length
  out_iff : Meets port.event copollOut ↔ port.length < cocarrierSize ∧ everClosed log = false
  send_eagain_iff : everClosed log = false → ∀ msg msgLen,
    (cocarrierSend port msg msgLen).map Outcome.reply = some (.err .eagain) ↔
      (outstanding log).length = cocarrierSize
  recv_eagain_iff :
    (cocarrierRecv port).map Outcome.reply = some (.err .eagain) ↔ outstanding log = []
  recv_head : ∀ m queue, outstanding log = m :: queue →
    (cocarrierRecv port).map Outcome.reply = some (.received m)
  send_frame : ∀ msg msgLen o e, cocarrierSend port msg msgLen = some o → o.reply = .err e →
    SameQueue port o.port copollWerr
  recv_frame : ∀ o e, cocarrierRecv port = some o → o.reply = .err e →
    SameQueue port o.port copollRerr

theorem Accounted.fifoView {port : Coport} {log : List (Call × Reply)} (h : Accounted port log) :
    FifoView port log := by
  have hidle := h.idle
  have hlen := hidle.queued.length_eq
  have hle := hidle.queued.len_le
  refine
    { length_le := hle
      end_eq := hidle.queued.stop_eq
      order := ?_
      slots := hidle.queued.messages
      in_iff := hidle.in_iff
      out_iff := hidle.out_iff
      send_eagain_iff := fun hc msg msgLen => ?_
      recv_eagain_iff := ?_
      recv_head := fun m queue hq => ?_
      send_frame := fun msg msgLen o e hcall he => ?_
      recv_frame := fun o e hcall he => ?_ }
  · obtain ⟨queue, hacc, -⟩ := h
    rw [outstanding, hacc, List.drop_left]
  · -- A never-closed port is open, so a send is refused only for want of room.
    have hopen := hidle.status_open hc
    by_cases hfull : (outstanding log).length = cocarrierSize
    · obtain ⟨port', hcall, -⟩ := send_refused hidle hopen (Or.inr hfull) msg msgLen
      simp [hcall, hfull]
    · have hroom : (outstanding log).length < cocarrierSize := by omega
      rw [hc] at hidle
      obtain ⟨port', hcall, -⟩ := send_accepted hidle hroom msg msgLen
      simp [hcall, hfull]
  · -- A receive is refused on an empty queue and takes the head of any other.
    cases hq : outstanding log with
    | nil =>
      rw [hq] at hidle
      obtain ⟨port', hcall, -⟩ := recv_empty hidle
      simp [hcall]
    | cons m queue =>
      rw [hq] at hidle
      obtain ⟨port', hcall, -⟩ := recv_taken hidle
      simp [hcall]
  · rw [hq] at hidle
    obtain ⟨port', hcall, -⟩ := recv_taken hidle
    simp [hcall]
  · by_cases hopen : port.status = .coportOpen
    · by_cases hno : everClosed log = true ∨ (outstanding log).length = cocarrierSize
      · obtain ⟨port', hcall', -, hsame⟩ := send_refused hidle hopen hno msg msgLen
        rw [hcall] at hcall'
        cases hcall'
        exact hsame
      · -- An accepted send has no error.
        have hc : everClosed log = false := by simpa using fun hc => hno (Or.inl hc)
        have hroom : (outstanding log).length < cocarrierSize := by omega
        rw [hc] at hidle
        obtain ⟨port', hcall', -⟩ := send_accepted hidle hroom msg msgLen
        rw [hcall] at hcall'
        cases hcall'
        cases he
    · rw [send_closing (hidle.closing_of_not_open hopen)] at hcall
      cases hcall
      exact sameQueue_refl port _
  · cases hq : outstanding log with
    | nil =>
      rw [hq] at hidle
      obtain ⟨port', hcall', -, hsame, -⟩ := recv_empty hidle
      rw [hcall] at hcall'
      cases hcall'
      exact hsame
    | cons m queue =>
      rw [hq] at hidle
      obtain ⟨port', hcall', -⟩ := recv_taken hidle
      rw [hcall] at hcall'
      cases hcall'
      cases he

theorem accounted_init : Accounted initCoport [] := ⟨[], rfl, idle_init⟩

end Comsg.Proofs.Ipcd
