import Comsg.Proofs.Ipcd.Fifo

/-!
# `Comsg.Proofs.Ipcd.Close`: what happens after a close

`ClosedForGood port queue post` says that the calls `post`, made one at a time on a port that
was closed with `queue` in it, find the port closed all along. The status is never
`COPORT_OPEN` after a call, sends and closes fail with `EPIPE`, the first receives return
`queue` in order, and the receives after those fail and leave the port closed.

`closedForGood_iff` states when this is so: exactly when there are no more receives than
messages. A receive that finds the queue empty stores `COPORT_OPEN` on its way out
(`recv_empty`), where the successful exit of the same function restores the status it found.
After it the port accepts a second close. `close_drained_reopens` is the shortest such run.
-/

set_option autoImplicit false

namespace Comsg.Proofs.Ipcd

open Comsg.Lib
open Comsg.Ipcd

/-- The answer a closed port owes to a call that follows `taken` receives. `port` is the port
after the call. -/
def AnswersClosed (queue : List Message) (taken : Nat) (port : Coport) :
    Call → Reply → Prop
  | .cosend _ _, reply  => reply = .err .epipe
  | .coclose, reply     => reply = .err .epipe
  | .comsgFree _, _     => True
  | .corecv, reply      =>
    match queue[taken]? with
    | some m => reply = .received m
    | none   => (∃ e, reply = .err e) ∧
        (port.status = .coportClosing ∨ port.status = .coportClosed)

/-- The calls `post` find the port closed, whichever of them comes next. -/
def ClosedForGood (port : Coport) (queue : List Message) (post : List Call) : Prop :=
  ∀ before c rest, post = before ++ c :: rest →
    ∃ p log p' reply, runLog callStep port before = some (p, log) ∧
      callStep p c = some (p', reply) ∧ p'.status ≠ .coportOpen ∧
      AnswersClosed queue (before.count .corecv) p' c reply

/-- The receive number `k` of a list of calls, counted from 0. -/
private theorem exists_recv_of_lt_count :
    ∀ (calls : List Call) (k : Nat), k < calls.count Call.corecv →
      ∃ before rest, calls = before ++ Call.corecv :: rest ∧ before.count Call.corecv = k := by
  intro calls
  induction calls with
  | nil => intro k hk; simp at hk
  | cons c calls ih =>
    intro k hk
    by_cases hc : c = .corecv
    · subst hc
      cases k with
      | zero => exact ⟨[], calls, rfl, rfl⟩
      | succ k =>
        rw [List.count_cons_self] at hk
        obtain ⟨before, rest, hsplit, hcount⟩ := ih k (by omega)
        exact ⟨.corecv :: before, rest, by rw [hsplit]; rfl, by rw [List.count_cons_self, hcount]⟩
    · rw [List.count_cons_of_ne hc] at hk
      obtain ⟨before, rest, hsplit, hcount⟩ := ih k hk
      exact ⟨c :: before, rest, by rw [hsplit]; rfl, by rw [List.count_cons_of_ne hc, hcount]⟩

/-- One call on a closing port, other than a receive that finds nothing. The port stays
closing, and a receive takes the head. -/
theorem closing_step {port : Coport} {queue : List Message} (c : Call)
    (h : Idle port queue true) (hst : port.status = .coportClosing)
    (hc : c = .corecv → queue ≠ []) :
    ∃ port' reply, callStep port c = some (port', reply) ∧ port'.status = .coportClosing ∧
      Idle port' (queue.drop ([c].count .corecv)) true ∧ AnswersClosed queue 0 port' c reply := by
  cases c with
  | cosend msg msgLen =>
    exact ⟨port, .err .epipe, by simp [callStep, callOutcome, send_closing hst], hst,
      by simpa using h, rfl⟩
  | coclose =>
    exact ⟨port, .err .epipe, by simp [callStep, callOutcome, close_closing hst], hst,
      by simpa using h, rfl⟩
  | comsgFree buf =>
    obtain ⟨hidle, hsame⟩ := idle_free h buf
    exact ⟨_, _, rfl, hsame.trans hst, by simpa using hidle, trivial⟩
  | corecv =>
    -- The successful exit restores the status it found, here `COPORT_CLOSING`.
    cases queue with
    | nil => exact absurd rfl (hc rfl)
    | cons m queue =>
      obtain ⟨port', hcall, hidle, hsame⟩ := recv_taken h
      exact ⟨port', .received m, by simp [callStep, callOutcome, hcall], hsame.trans hst,
        by simpa using hidle, rfl⟩

/-- Calls on a closing port with at most as many receives as messages leave it closing, with
the messages not yet taken. -/
theorem closing_run :
    ∀ (calls : List Call) {port : Coport} {queue : List Message}, Idle port queue true →
      port.status = .coportClosing → calls.count .corecv ≤ queue.length →
      ∃ port' log, runLog callStep port calls = some (port', log) ∧
        port'.status = .coportClosing ∧ Idle port' (queue.drop (calls.count .corecv)) true := by
  intro calls
  induction calls with
  | nil =>
    intro port queue h hst _
    exact ⟨port, [], rfl, hst, by simpa using h⟩
  | cons c calls ih =>
    intro port queue h hst hle
    -- The first call takes its share of the queue, the others take theirs from what is left.
    have hsum : (c :: calls).count .corecv = [c].count .corecv + calls.count .corecv := by
      rw [← List.count_append]
      rfl
    have hne : c = .corecv → queue ≠ [] := by
      rintro rfl rfl
      simp at hle
    obtain ⟨p, reply, hstep, hst', hidle, -⟩ := closing_step c h hst hne
    obtain ⟨p', log, hrun, hst'', hidle'⟩ := ih hidle hst' (by rw [List.length_drop]; omega)
    refine ⟨p', (c, reply) :: log, by simp [runLog, hstep, hrun], hst'', ?_⟩
    rw [hsum, ← List.drop_drop]
    exact hidle'

/-- What a closed port owes after `taken` receives is what the rest of the queue owes. -/
private theorem answersClosed_drop {queue : List Message} {taken : Nat} {port : Coport} {c : Call}
    {reply : Reply} (h : AnswersClosed (queue.drop taken) 0 port c reply) :
    AnswersClosed queue taken port c reply := by
  cases c with
  | corecv => simpa [AnswersClosed, List.getElem?_drop] using h
  | _ => exact h

/-- A port closed between two calls stays closed through `post` exactly when `post` makes no
more receives than there were messages in the port. The close is any close that returned 0,
after any calls `pre` on a fresh cocarrier. -/
theorem closedForGood_iff (pre post : List Call) (port port' : Coport)
    (log : List (Call × Reply)) (hpre : runLog callStep initCoport pre = some (port, log))
    (hclose : callStep port .coclose = some (port', .closed)) :
    ClosedForGood port' (outstanding log) post ↔
      post.count .corecv ≤ (outstanding log).length := by
  obtain ⟨p, log', hrun, hacc⟩ := runLog_total accounted_step pre initCoport [] accounted_init
  rw [hpre] at hrun
  cases hrun
  have hidle := hacc.idle
  rw [List.nil_append] at hidle
  -- Only an open port answers a close with 0.
  have hopen : port.status = .coportOpen := by
    by_contra hne
    rw [callStep, callOutcome, close_closing (hidle.closing_of_not_open hne)] at hclose
    cases hclose
  obtain ⟨q, hcall, hidle', hst⟩ := close_open hidle hopen
  have hq : q = port' := by
    simp only [callStep, callOutcome, hcall, Option.map_some, Option.some.injEq,
      Prod.mk.injEq, and_true] at hclose
    exact hclose
  subst hq
  constructor
  · intro hgood
    by_contra hmany
    obtain ⟨before, rest, hsplit, hcount⟩ :=
      exists_recv_of_lt_count post (outstanding log).length (Nat.not_le.mp hmany)
    obtain ⟨p, plog, p', reply, hrun, hstep, hnotopen, -⟩ := hgood before .corecv rest hsplit
    -- The receives before this one took the whole queue, so it runs `recv_empty` and the port is
    -- open after it.
    obtain ⟨p₁, log₁, hrun₁, -, hidle₁⟩ := closing_run before hidle' hst (Nat.le_of_eq hcount)
    rw [hrun] at hrun₁
    cases hrun₁
    rw [hcount, List.drop_length] at hidle₁
    obtain ⟨p₂, hcall₂, -, -, hopen₂⟩ := recv_empty hidle₁
    rw [callStep, callOutcome, hcall₂] at hstep
    cases hstep
    exact hnotopen hopen₂
  · intro hle before c rest hsplit
    -- No receive up to `c` finds the queue empty, so each step is a `closing_step`.
    have hcount : before.count .corecv + [c].count .corecv ≤ (outstanding log).length := by
      rw [hsplit, show before ++ c :: rest = before ++ [c] ++ rest by simp,
        List.count_append, List.count_append] at hle
      omega
    obtain ⟨p, plog, hrun, hst', hidle₁⟩ := closing_run before hidle' hst (by omega)
    have hne : c = .corecv → (outstanding log).drop (before.count .corecv) ≠ [] := by
      rintro rfl hnil
      rw [List.drop_eq_nil_iff] at hnil
      simp at hcount
      omega
    obtain ⟨p', reply, hstep, hst'', -, hans⟩ := closing_step c hidle₁ hst' hne
    exact ⟨p, plog, p', reply, hrun, hstep, by rw [hst'']; decide, answersClosed_drop hans⟩

/-- An empty message without attachments. -/
private def emptyMsg : Message := { buf := some ⟨0, []⟩, attachments := none, nattachments := 0 }

/-- One message queued, the port closed, the message received: within the bound. -/
theorem closedForGood_one_message :
    ∃ port port' log,
      runLog callStep initCoport [.cosend emptyMsg 0] = some (port, log) ∧
      callStep port .coclose = some (port', .closed) ∧
      ClosedForGood port' (outstanding log) [.cosend emptyMsg 0, .corecv, .coclose] := by
  refine ⟨_, _, _, rfl, rfl, ?_⟩
  exact (closedForGood_iff [.cosend emptyMsg 0] _ _ _ _ rfl rfl).mpr (by decide)

/-- A fresh cocarrier is closed and then received from. The receive fails and opens the port,
and a second close succeeds. -/
theorem close_drained_reopens :
    ∃ port, callStep initCoport .coclose = some (port, .closed) ∧
      ¬ClosedForGood port [] [.corecv, .coclose] ∧
      (runLog callStep port [.corecv, .coclose]).map Prod.snd
        = some [(.corecv, .err .eagain), (.coclose, .closed)] := by
  refine ⟨_, rfl, ?_, rfl⟩
  intro h
  obtain ⟨p, log, p', reply, hrun, hstep, hopen, -⟩ := h [] .corecv [.coclose] rfl
  cases hrun
  cases hstep
  exact hopen rfl

end Comsg.Proofs.Ipcd
