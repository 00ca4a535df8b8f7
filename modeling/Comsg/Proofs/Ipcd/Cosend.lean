import Comsg.Ipcd.Cosend
import Comsg.Lib.Compression
import Comsg.Proofs.Ipcd.Free

/-!
# `Comsg.Proofs.Ipcd.Cosend`: what a receiver gets of a message

A receiver gets the whole buffer of a message. This is as long as `malloc` has made it. So the
message arrives as it was sent exactly when its length is one that a capability can have
(`delivered_exactly_iff`). Of a longer buffer the receiver also gets what the heap held behind the
message (`heap_bytes_delivered`).
-/

set_option autoImplicit false

namespace Comsg.Proofs.Ipcd

open Comsg.Lib
open Comsg.Ipcd

/-- The receiver is told the length that the sender was, and gets those bytes and no others. -/
def DeliversExactly (x : Nat × List UInt8) (m : Message) : Prop :=
  ∃ b, m.buf = some b ∧ b.len = x.1 ∧ b.data = x.2.take x.1

/-- The buffer of the message, with its bytes in front. -/
def CopiedFrom (heap : Allocator) (x : Nat × List UInt8) (m : Message) : Prop :=
  x.1 ≤ x.2.length ∧ ∃ call, m.buf = some { heap.malloc call x.1 with
    data := x.2.take x.1 ++ (heap.malloc call x.1).data.drop x.1 }

/-- The log of a run of requests against a log of the calls that they made: what was received is
the same, and the messages that were accepted are copies of what was sent. -/
def Copied (heap : Allocator) (s : Coport × Nat) (log : List (ClientCall × Reply)) : Prop :=
  ∃ calls, Accounted s.1 calls ∧ delivered log = received calls ∧
    List.Forall₂ (CopiedFrom heap) (sent log) (accepted calls)

section Steps
variable {heap : Allocator} {s : Coport × Nat} {log : List (ClientCall × Reply)}

theorem copyMessage_eq {msgAlloc : MsgBuf} {message : List UInt8} {msgLen : Nat}
    (halloc : msgLen ≤ msgAlloc.len) (hmessage : msgLen ≤ message.length) :
    copyMessage msgAlloc message msgLen = some { msgAlloc with
      data := message.take msgLen ++ msgAlloc.data.drop msgLen } := by
  have halloc' : msgLen ≤ msgAlloc.data.length := halloc
  simp [copyMessage, memcpy, halloc', hmessage]

theorem sent_snoc (e : ClientCall × Reply) : sent (log ++ [e]) = sent log ++ (sentOf e).toList := by
  cases h : sentOf e <;> simp [sent, h]

theorem delivered_snoc (e : ClientCall × Reply) :
    delivered (log ++ [e]) = delivered log ++ (deliveredOf e).toList := by
  cases h : deliveredOf e <;> simp [delivered, h]

theorem copied_send (args : SendArgs) (h : Copied heap s log) :
    ∃ s' reply, clientStep heap s (.cosend args) = some (s', reply) ∧
      Copied heap s' (log ++ [(ClientCall.cosend args, reply)]) := by
  obtain ⟨calls, hcounts, hdelivered, hcopied⟩ := h
  cases hvalid : messageToSend args with
  | none =>
    refine ⟨s, .err .einval, by simp [clientStep, hvalid], calls, hcounts, ?_, ?_⟩
    · rw [delivered_snoc, hdelivered]
      exact List.append_nil _
    · rw [sent_snoc]
      simpa [sentOf] using hcopied
  | some message =>
    have hmessage : args.message = some message := (Option.filter_eq_some_iff.mp hvalid).1
    obtain ⟨msgLen, hlen⟩ : ∃ msgLen, msgLen = min args.length message.length := ⟨_, rfl⟩
    have hle : msgLen ≤ message.length := hlen ▸ Nat.min_le_right _ _
    have hcopy := copyMessage_eq (heap.le_len s.2 msgLen) hle
    obtain ⟨port', reply, hs, hcounts'⟩ := accounted_step s.1 calls
      (.cosend ⟨some { heap.malloc s.2 msgLen with
        data := message.take msgLen ++ (heap.malloc s.2 msgLen).data.drop msgLen },
        args.attachments, args.nattachments⟩ msgLen) hcounts
    refine ⟨(port', s.2 + 1), reply, ?_, _, hcounts', ?_, ?_⟩
    · simp [clientStep, hvalid, ← hlen, hcopy, hs]
    · rw [delivered_snoc, received_snoc, hdelivered]
      rfl
    · rw [sent_snoc, accepted_snoc]
      refine List.rel_append hcopied ?_
      -- Accepted means that the reply is the length.
      rcases callStep_slots hs with ⟨msg, len, hc, rfl, -⟩ | ⟨hc, -⟩ | ⟨_, _, hc, -⟩ |
        ⟨hno, -⟩
      · cases hc
        simp only [sentOf, hmessage, Option.map_some, acceptedOf, Option.toList_some]
        exact .cons ⟨hle, s.2, rfl⟩ .nil
      · cases hc
      · cases hc
      · have hno' : sentOf (.cosend args, reply) = none := by
          cases reply <;> first | rfl | cases hno
        rw [hno, hno']
        exact .nil

/-- A request that sends nothing makes its call. -/
theorem copied_call {r : ClientCall} {c : Call} (h : Copied heap s log)
    (hcall : clientStep heap s r = (callStep s.1 c).map fun (port, reply) => ((port, s.2), reply))
    (hsent : ∀ reply, sentOf (r, reply) = none) (hacc : ∀ reply, acceptedOf (c, reply) = none)
    (hsame : ∀ reply, deliveredOf (r, reply) = receivedOf (c, reply)) :
    ∃ s' reply, clientStep heap s r = some (s', reply) ∧ Copied heap s' (log ++ [(r, reply)]) := by
  obtain ⟨calls, hcounts, hdelivered, hcopied⟩ := h
  obtain ⟨port', reply, hs, hcounts'⟩ := accounted_step s.1 calls c hcounts
  refine ⟨(port', s.2), reply, by rw [hcall, hs]; rfl, _, hcounts', ?_, ?_⟩
  · rw [delivered_snoc, received_snoc, hdelivered, hsame]
  · rw [sent_snoc, accepted_snoc, hsent, hacc]
    simpa using hcopied

theorem copied_step (s : Coport × Nat) (log : List (ClientCall × Reply)) (r : ClientCall)
    (h : Copied heap s log) :
    ∃ s' reply, clientStep heap s r = some (s', reply) ∧
      Copied heap s' (log ++ [(r, reply)]) := by
  cases r with
  | cosend args => exact copied_send args h
  | corecv =>
    refine copied_call (c := .corecv) h rfl (fun _ => rfl) (fun _ => rfl) fun reply => ?_
    cases reply <;> rfl
  | coclose => exact copied_call (c := .coclose) h rfl (fun _ => rfl) (fun _ => rfl) fun _ => rfl
  | comsgFree buf =>
    exact copied_call (c := .comsgFree buf) h rfl (fun _ => rfl) (fun _ => rfl) fun _ => rfl

end Steps

theorem copied_run (heap : Allocator) (reqs : List ClientCall) :
    ∃ s log, runLog (clientStep heap) (initCoport, 0) reqs = some (s, log) ∧
      Copied heap s log := by
  have hinit : Copied heap (initCoport, 0) [] := ⟨[], accounted_init, rfl, .nil⟩
  obtain ⟨s, log, hrun, hcopied⟩ := runLog_total copied_step reqs (initCoport, 0) [] hinit
  rw [List.nil_append] at hcopied
  exact ⟨s, log, hrun, hcopied⟩

/-- What the `k`-th receive returns is a copy of what the `k`-th accepted send was given. -/
theorem Copied.delivered {heap : Allocator} {s : Coport × Nat} {log : List (ClientCall × Reply)}
    {k : Nat} {x : Nat × List UInt8} {m : Message} (h : Copied heap s log)
    (hsent : (sent log)[k]? = some x) (hm : (delivered log)[k]? = some m) :
    CopiedFrom heap x m := by
  obtain ⟨calls, ⟨queue, hacc, -⟩, hdelivered, hcopied⟩ := h
  have hlt := (List.getElem?_eq_some_iff.mp hm).1
  have hm' : (accepted calls)[k]? = some m := by
    rw [hacc, List.getElem?_append_left (hdelivered ▸ hlt), ← hdelivered, hm]
  have hlt' := (List.getElem?_eq_some_iff.mp hsent).1
  have hrel := hcopied.get hlt' (List.getElem?_eq_some_iff.mp hm').1
  rwa [List.get_eq_getElem, List.get_eq_getElem, (List.getElem?_eq_some_iff.mp hsent).2,
    (List.getElem?_eq_some_iff.mp hm').2] at hrel

/-- A copy arrives as it was sent when its length is representable. -/
theorem CopiedFrom.delivers_iff {heap : Allocator} {x : Nat × List UInt8} {m : Message}
    (h : CopiedFrom heap x m) : DeliversExactly x m ↔ heap.representable x.1 := by
  obtain ⟨hle, call, hbuf⟩ := h
  have hlen : (x.2.take x.1).length = x.1 := by simp [hle]
  constructor
  · rintro ⟨b, hb, hblen, -⟩
    rw [hbuf] at hb
    cases hb
    -- The buffer has the length of the message, and this is one that `malloc` gives.
    have heq : (heap.malloc call x.1).len = x.1 := by
      have hle' := heap.le_len call x.1
      simp only [MsgBuf.len, List.length_append, hlen, List.length_drop] at hblen hle' ⊢
      omega
    have hrep := heap.representable_len call x.1
    rwa [heq] at hrep
  · intro hrep
    have hnone : (heap.malloc call x.1).data.drop x.1 = [] :=
      List.drop_eq_nil_of_le (Nat.le_of_eq (heap.len_eq call x.1 hrep))
    refine ⟨_, hbuf, ?_, ?_⟩
    · simp only [MsgBuf.len, hnone, List.append_nil, hlen]
    · simp only [hnone, List.append_nil]

/-- In every run of requests, the receive that dequeues a message reports its length and gives
access to its bytes and no others, exactly when the length is representable. -/
theorem delivered_exactly_iff (heap : Allocator) {reqs : List ClientCall} {s : Coport × Nat}
    {log : List (ClientCall × Reply)} {k : Nat} {x : Nat × List UInt8} {m : Message}
    (hrun : runLog (clientStep heap) (initCoport, 0) reqs = some (s, log))
    (hsent : (sent log)[k]? = some x) (hm : (delivered log)[k]? = some m) :
    DeliversExactly x m ↔ heap.representable x.1 := by
  obtain ⟨s', log', hrun', hcopied⟩ := copied_run heap reqs
  rw [hrun] at hrun'
  cases hrun'
  exact (hcopied.delivered hsent hm).delivers_iff

/-! ### The heap of a 128-bit target -/

/-- The lengths below `2 ^ 12` are exact there. The heap holds the byte 165 everywhere. -/
def cheriHeap : Allocator where
  representable := Representable 12
  malloc call n := ⟨call, List.replicate (representableLength 12 n) 165⟩
  le_len call n := by
    simpa [MsgBuf.len] using le_representableLength 12 n
  representable_len call n := by
    simpa [MsgBuf.len] using representable_representableLength (by decide) n
  len_eq call n h := by
    simpa [MsgBuf.len] using representableLength_eq h

/-- A message that is sent and received. -/
theorem run_one (heap : Allocator) (message : List UInt8)
    (hmax : message.length ≤ cocarrierMaxMsgLen) :
    ∃ s log m, runLog (clientStep heap) (initCoport, 0)
        [.cosend ⟨some message, message.length, none, 0⟩, .corecv] = some (s, log) ∧
      sent log = [(message.length, message)] ∧ delivered log = [m] := by
  have hvalid : messageToSend ⟨some message, message.length, none, 0⟩ = some message := by
    simp [messageToSend, hmax]
  have hcopy := copyMessage_eq (heap.le_len 0 message.length) (Nat.le_refl message.length)
  obtain ⟨msg, hmsg⟩ : ∃ msg : Message, msg = ⟨some { heap.malloc 0 message.length with
      data := message.take message.length ++ (heap.malloc 0 message.length).data.drop
        message.length }, none, 0⟩ := ⟨_, rfl⟩
  obtain ⟨port₁, hsend, hidle₁⟩ := send_accepted idle_init (by decide) msg message.length
  obtain ⟨port₂, hrecv, -⟩ := recv_taken hidle₁
  refine ⟨(port₂, 1), [(.cosend ⟨some message, message.length, none, 0⟩, .sent message.length),
    (.corecv, .received msg)], msg, ?_, rfl, rfl⟩
  simp only [runLog, clientStep, hvalid, Nat.min_self, hcopy, ← hmsg, callStep, callOutcome, hsend,
    hrecv, Option.bind_eq_bind, Option.bind_some, Option.map_some]

/-- A short message arrives as it was sent. -/
theorem delivered_exactly_iff_short :
    ∃ s log m, runLog (clientStep cheriHeap) (initCoport, 0)
        [.cosend ⟨some [1, 2, 3], 3, none, 0⟩, .corecv] = some (s, log) ∧
      (delivered log)[0]? = some m ∧ DeliversExactly (3, [1, 2, 3]) m := by
  obtain ⟨s, log, m, hrun, hsent, hm⟩ := run_one cheriHeap [1, 2, 3] (by decide)
  have hm₀ : (delivered log)[0]? = some m := by rw [hm]; rfl
  have hiff := delivered_exactly_iff cheriHeap hrun (k := 0) (by rw [hsent]; rfl) hm₀
  exact ⟨s, log, m, hrun, hm₀, hiff.mpr (show Representable 12 3 by decide)⟩

/-- The receiver of 4097 bytes is told that they are 4104, and sees seven bytes of the heap. -/
theorem heap_bytes_delivered :
    ∃ s log m b, runLog (clientStep cheriHeap) (initCoport, 0)
        [.cosend ⟨some (List.replicate 4097 0), 4097, none, 0⟩, .corecv] = some (s, log) ∧
      (sent log)[0]? = some (4097, List.replicate 4097 0) ∧ (delivered log)[0]? = some m ∧
      m.buf = some b ∧ b.len = 4104 ∧ b.data.drop 4097 = List.replicate 7 165 := by
  obtain ⟨s, log, m, hrun, hsent, hm⟩ :=
    run_one cheriHeap (List.replicate 4097 0) (by rw [List.length_replicate]; decide)
  rw [List.length_replicate] at hrun hsent
  obtain ⟨s', log', hrun', hcopied⟩ := copied_run cheriHeap
    [.cosend ⟨some (List.replicate 4097 0), 4097, none, 0⟩, .corecv]
  rw [hrun] at hrun'
  cases hrun'
  have hsent₀ : (sent log)[0]? = some (4097, List.replicate 4097 0) := by rw [hsent]; rfl
  have hm₀ : (delivered log)[0]? = some m := by rw [hm]; rfl
  obtain ⟨-, call, hbuf⟩ := hcopied.delivered hsent₀ hm₀
  have hfront : (List.take 4097 (List.replicate 4097 (0 : UInt8))).length = 4097 := by
    rw [List.length_take, List.length_replicate, Nat.min_self]
  have hback : (cheriHeap.malloc call 4097).data.drop 4097 = List.replicate 7 165 := by
    have hround : representableLength 12 4097 = 4104 := by decide
    show (List.replicate (representableLength 12 4097) 165).drop 4097 = List.replicate 7 165
    rw [hround, List.drop_replicate]
  refine ⟨s, log, m, _, hrun, hsent₀, hm₀, hbuf, ?_, ?_⟩
  · rw [MsgBuf.len, List.length_append, hfront, hback, List.length_replicate]
  · rw [List.drop_left' hfront, hback]

end Comsg.Proofs.Ipcd
