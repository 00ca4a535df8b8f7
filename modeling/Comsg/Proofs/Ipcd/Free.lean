import Comsg.Proofs.Ipcd.Fifo

/-!
# `Comsg.Proofs.Ipcd.Free`: which messages can be freed

A message that was received is remembered in its slot of the ring only. The `k`-th message that a
cocarrier accepts is in slot `k % COCARRIER_SIZE`, until that many more were accepted. Until then
`free_comsg` finds it, once, after it was received (`free_reply_iff`). After that it cannot be
freed any more (`received_message_lost`).

`free_once_iff` is about every run of calls made one at a time, when `malloc` gives each accepted
message a buffer of its own.
-/

set_option autoImplicit false

namespace Comsg.Proofs.Ipcd

open Comsg.Lib
open Comsg.Ipcd

/-- Every message has a buffer, and no two buffers are at the same place. -/
structure DistinctBuffers (msgs : List Message) : Prop where
  there : ∀ m ∈ msgs, ∃ b, m.buf = some b
  nodup : (msgs.map fun m => m.buf.map MsgBuf.base).Nodup

/-- The call has freed the buffer `b`. -/
def frees (b : MsgBuf) : Call × Reply → Bool
  | (.comsgFree buf, .freed) => b.base == buf.base && b.len == buf.len
  | _                        => false

/-- A call of the log has freed the buffer `b`. -/
def freedIn (log : List (Call × Reply)) (b : MsgBuf) : Bool := log.any (frees b)

/-- The slot of the `k`-th accepted message `m`, whose buffer is `b`. -/
def slotOf (log : List (Call × Reply)) (k : Nat) (m : Message) (b : MsgBuf) : CocarrierMessage where
  msg := { m with buf := if freedIn log b then none else some b }
  freed := freedIn log b
  recvd := decide (k < (received log).length)

/-- The slots of the port after a run with the log `log`. -/
structure SlotsOk (port : Coport) (log : List (Call × Reply)) : Prop where
  start : port.start = (received log).length % cocarrierSize
  slot : ∀ k m b, (accepted log)[k]? = some m → m.buf = some b →
    (accepted log).length ≤ k + cocarrierSize → port.buf (k % cocarrierSize) = slotOf log k m b
  unused : ∀ i, (accepted log).length ≤ i → i < cocarrierSize → (port.buf i).recvd = false
  /-- Only received messages were freed. -/
  freed : ∀ buf, (Call.comsgFree buf, Reply.freed) ∈ log →
    ∃ (k : Nat) (m : Message) (b : MsgBuf), (accepted log)[k]? = some m ∧ m.buf = some b ∧
      b.base = buf.base

section Logs
variable {log : List (Call × Reply)} {e : Call × Reply} {k k' : Nat} {m m' : Message}
  {b b' : MsgBuf}

theorem freedIn_snoc : freedIn (log ++ [e]) b = (freedIn log b || frees b e) := by
  simp [freedIn]

theorem DistinctBuffers.of_append {msgs msgs' : List Message}
    (h : DistinctBuffers (msgs ++ msgs')) : DistinctBuffers msgs := by
  refine ⟨fun m hm => h.there m (List.mem_append_left _ hm), ?_⟩
  have hnodup := h.nodup
  rw [List.map_append] at hnodup
  exact hnodup.of_append_left

/-- The place of a buffer tells the message. -/
theorem DistinctBuffers.inj {msgs : List Message} (h : DistinctBuffers msgs)
    (hk : msgs[k]? = some m) (hk' : msgs[k']? = some m') (hb : m.buf = some b)
    (hb' : m'.buf = some b') (hbase : b.base = b'.base) : k = k' := by
  have hlt : k < (msgs.map fun m => m.buf.map MsgBuf.base).length := by
    simpa using (List.getElem?_eq_some_iff.mp hk).1
  refine (List.getElem?_inj hlt h.nodup).mp ?_
  simp [hk, hk', hb, hb', hbase]

end Logs

section Slots
variable {port port' : Coport} {log : List (Call × Reply)} {c : Call} {reply : Reply}

@[simp] theorem copollNotify_buf (port : Coport) (event : CoportEventmask) :
    (copollNotify port event).1.buf = port.buf := by
  unfold copollNotify
  split
  · rfl
  · split <;> rfl

@[simp] theorem copollNotify_start (port : Coport) (event : CoportEventmask) :
    (copollNotify port event).1.start = port.start := by
  unfold copollNotify
  split
  · rfl
  · split <;> rfl

/-- What a call can do to the slots and to `start`. -/
theorem callStep_slots (h : callStep port c = some (port', reply)) :
    (∃ msg msgLen, c = .cosend msg msgLen ∧ reply = .sent msgLen ∧ port'.start = port.start ∧
      port'.buf = Function.update port.buf port.end_ { msg, freed := false, recvd := false }) ∨
    (c = .corecv ∧ reply = .received (port.buf port.start).msg ∧
      port'.start = (port.start + 1) % cocarrierSize ∧
      port'.buf = Function.update port.buf port.start
        { port.buf port.start with recvd := true }) ∨
    (∃ buf i, c = .comsgFree buf ∧ reply = .freed ∧ i < cocarrierSize ∧
      freeable port buf i = true ∧ port'.start = port.start ∧
      port'.buf = Function.update port.buf i { port.buf i with
        freed := true, msg := { (port.buf i).msg with buf := none } }) ∨
    (acceptedOf (c, reply) = none ∧ receivedOf (c, reply) = none ∧ reply ≠ .freed ∧
      port'.start = port.start ∧ port'.buf = port.buf) := by
  obtain ⟨o, ho, heq⟩ := Option.map_eq_some_iff.mp h
  cases heq
  cases c with
  | cosend msg msgLen =>
    simp only [callOutcome, cocarrierSend] at ho
    split at ho
    · split at ho <;> cases ho
      · exact .inr (.inr (.inr ⟨rfl, rfl, by simp, rfl, rfl⟩))
      · exact .inl ⟨msg, msgLen, rfl, rfl, by simp [Coport.setStatus, Coport.enqueue],
          by simp [Coport.setStatus, Coport.enqueue]⟩
    · cases ho
      exact .inr (.inr (.inr ⟨rfl, rfl, by simp, rfl, rfl⟩))
    · cases ho
      exact .inr (.inr (.inr ⟨rfl, rfl, by simp, rfl, rfl⟩))
    · cases ho
  | corecv =>
    simp only [callOutcome, cocarrierRecv] at ho
    split at ho
    · cases ho
      exact .inr (.inr (.inr ⟨rfl, rfl, by simp, rfl, rfl⟩))
    · obtain ⟨⟨status, closing⟩, -, ho⟩ := Option.map_eq_some_iff.mp ho
      subst ho
      dsimp only
      split
      · exact .inr (.inr (.inr ⟨rfl, rfl, by simp, rfl, rfl⟩))
      · exact .inr (.inl ⟨rfl, by simp [Coport.setStatus, Coport.dequeue],
          by simp [Coport.setStatus, Coport.dequeue, Coport.markRecvd],
          by simp [Coport.setStatus, Coport.dequeue, Coport.markRecvd]⟩)
  | coclose =>
    simp only [callOutcome, coportClose] at ho
    split at ho <;> cases ho <;> exact .inr (.inr (.inr ⟨rfl, rfl, by simp, rfl, rfl⟩))
  | comsgFree buf =>
    simp only [callOutcome, Option.some.injEq] at ho
    subst ho
    unfold freeComsg
    split
    · rename_i i hfind
      exact .inr (.inr (.inl ⟨buf, i, rfl, rfl,
        List.mem_range.mp (List.mem_of_find?_eq_some hfind), List.find?_some hfind, rfl, rfl⟩))
    · exact .inr (.inr (.inr ⟨rfl, rfl, by simp, rfl, rfl⟩))

/-- A slot that was used is freed by the capability of its message, after this was received. -/
theorem freeable_slotOf {buf b : MsgBuf} {i k : Nat} {m : Message}
    (h : port.buf i = slotOf log k m b) : freeable port buf i = true ↔
      k < (received log).length ∧ freedIn log b = false ∧ b.base = buf.base ∧ b.len = buf.len := by
  cases hfreed : freedIn log b <;> simp [freeable, h, slotOf, hfreed]

/-- What `free_comsg` finds is the slot of a message that was received and not freed. -/
theorem SlotsOk.owner (h : SlotsOk port log) (hd : DistinctBuffers (accepted log)) {buf : MsgBuf}
    {i : Nat} (hi : i < cocarrierSize) (hf : freeable port buf i = true) :
    ∃ k m b, (accepted log)[k]? = some m ∧ m.buf = some b ∧
      (accepted log).length ≤ k + cocarrierSize ∧ k % cocarrierSize = i ∧
      k < (received log).length ∧ freedIn log b = false ∧ b.base = buf.base ∧ b.len = buf.len := by
  have hused : i < (accepted log).length := by
    rw [← Nat.not_le]
    intro hle
    have hno := h.unused i hle hi
    simp [freeable, hno] at hf
  obtain ⟨k, hlt, hlive, rfl⟩ := exists_ringSlot hi hused
  have hk : (accepted log)[k]? = some (accepted log)[k] := List.getElem?_eq_getElem hlt
  obtain ⟨b, hb⟩ := hd.there _ (List.getElem_mem hlt)
  obtain ⟨hrecvd, hfreed, hbase, hlen⟩ := (freeable_slotOf (h.slot k _ b hk hb hlive)).mp hf
  exact ⟨k, _, b, hk, hb, hlive, rfl, hrecvd, hfreed, hbase, hlen⟩

/-- A message can be freed when it was received, was not freed, and its slot was not used
again. -/
theorem free_reply_iff (h : SlotsOk port log) (hd : DistinctBuffers (accepted log)) {k : Nat}
    {m : Message} {b : MsgBuf} (hk : (accepted log)[k]? = some m) (hb : m.buf = some b) :
    (freeComsg port b).reply = .freed ↔ k < (received log).length ∧ freedIn log b = false ∧
      (accepted log).length ≤ k + cocarrierSize := by
  constructor
  · intro hfree
    unfold freeComsg at hfree
    split at hfree
    · rename_i i hfind
      have hi := List.mem_range.mp (List.mem_of_find?_eq_some hfind)
      obtain ⟨k', m', b', hk', hb', hlive, -, hrecvd, hfreed, hbase, -⟩ :=
        h.owner hd hi (List.find?_some hfind)
      obtain rfl : k = k' := hd.inj hk hk' hb hb' hbase.symm
      obtain rfl : m' = m := Option.some.inj (hk'.symm.trans hk)
      obtain rfl : b' = b := Option.some.inj (hb'.symm.trans hb)
      exact ⟨hrecvd, hfreed, hlive⟩
    · cases hfree
  · rintro ⟨hrecvd, hfreed, hlive⟩
    have hf : freeable port b (k % cocarrierSize) = true :=
      (freeable_slotOf (h.slot k m b hk hb hlive)).mpr ⟨hrecvd, hfreed, rfl, rfl⟩
    have hmem : k % cocarrierSize ∈ List.range cocarrierSize :=
      List.mem_range.mpr (Nat.mod_lt _ cocarrierSize_pos)
    obtain ⟨i, hfind⟩ := Option.isSome_iff_exists.mp (List.find?_isSome.mpr ⟨_, hmem, hf⟩)
    simp [freeComsg, hfind]

/-- `free_comsg` frees, or fails with `EINVAL`. -/
theorem free_reply_cases (port : Coport) (buf : MsgBuf) :
    (freeComsg port buf).reply = .freed ∨ (freeComsg port buf).reply = .err .einval := by
  unfold freeComsg
  split
  · exact .inl rfl
  · exact .inr rfl

end Slots

/-! ### The slots along a run -/

section Steps
variable {port port' : Coport} {log : List (Call × Reply)}

/-- The counts between two calls. -/
theorem Accounted.counts (h : Accounted port log) :
    (accepted log).length = (received log).length + port.length ∧ port.length ≤ cocarrierSize ∧
      port.end_ = (port.start + port.length) % cocarrierSize := by
  obtain ⟨queue, hacc, hidle⟩ := h
  refine ⟨?_, hidle.queued.len_le, hidle.queued.stop_eq⟩
  rw [hacc, List.length_append, hidle.queued.length_eq]

/-- A call that frees nothing leaves what was freed. -/
theorem freedIn_of_quiet {e : Call × Reply} (log : List (Call × Reply))
    (h : ∀ b, frees b e = false) (b : MsgBuf) : freedIn (log ++ [e]) b = freedIn log b := by
  rw [freedIn_snoc, h b, Bool.or_false]

/-- What was freed was the buffer of an accepted message. -/
theorem SlotsOk.freedIn_ne (h : SlotsOk port log) {b : MsgBuf} (hfreed : freedIn log b = true) :
    ∃ (k : Nat) (m : Message) (b' : MsgBuf), (accepted log)[k]? = some m ∧ m.buf = some b' ∧
      b'.base = b.base := by
  obtain ⟨⟨c, reply⟩, hmem, hfrees⟩ := List.any_eq_true.mp hfreed
  unfold frees at hfrees
  split at hfrees
  · rename_i buf heq
    cases heq
    simp only [Bool.and_eq_true, beq_iff_eq] at hfrees
    obtain ⟨k, m, b', hk, hb', hbase⟩ := h.freed buf hmem
    exact ⟨k, m, b', hk, hb', hbase.trans hfrees.1.symm⟩
  · cases hfrees

theorem slotsOk_send {msg : Message} {msgLen : Nat} (h : SlotsOk port log)
    (hcounts : Accounted port log)
    (hd : DistinctBuffers (accepted (log ++ [(Call.cosend msg msgLen, Reply.sent msgLen)])))
    (hstart : port'.start = port.start)
    (hbuf : port'.buf =
      Function.update port.buf port.end_ { msg, freed := false, recvd := false }) :
    SlotsOk port' (log ++ [(Call.cosend msg msgLen, Reply.sent msgLen)]) := by
  obtain ⟨htotal, hle, hend⟩ := hcounts.counts
  have hacc : accepted (log ++ [(Call.cosend msg msgLen, Reply.sent msgLen)]) =
      accepted log ++ [msg] :=
    accepted_snoc _ _
  have hrec : received (log ++ [(Call.cosend msg msgLen, Reply.sent msgLen)]) = received log :=
    received_snoc_none rfl
  have hfreedIn := freedIn_of_quiet (e := (.cosend msg msgLen, .sent msgLen)) log fun _ => rfl
  -- The message goes to the slot after the last one.
  have hslot : port.end_ = (accepted log).length % cocarrierSize := by
    rw [hend, h.start, Nat.mod_add_mod, htotal]
  rw [hacc] at hd
  have hat : (accepted log ++ [msg])[(accepted log).length]? = some msg := by simp
  constructor
  · rw [hrec, hstart, h.start]
  · intro k m b hk hb hlive
    rw [hacc] at hk hlive
    rw [List.length_append, List.length_singleton] at hlive
    have hlt : k < (accepted log).length + 1 := by
      simpa using (List.getElem?_eq_some_iff.mp hk).1
    have hsame : slotOf (log ++ [(Call.cosend msg msgLen, Reply.sent msgLen)]) k m b =
        slotOf log k m b := by
      simp only [slotOf, hfreedIn, hrec]
    rw [hsame, hbuf, hslot]
    by_cases heq : k = (accepted log).length
    · subst heq
      rw [hat] at hk
      cases hk
      -- Its buffer is a new one.
      have hnew : freedIn log b = false := by
        rw [← Bool.not_eq_true]
        intro hfreed
        obtain ⟨k', m', b', hk', hb', hbase⟩ := h.freedIn_ne hfreed
        have hlt' := (List.getElem?_eq_some_iff.mp hk').1
        have hk'' : (accepted log ++ [msg])[k']? = some m' := by
          rw [List.getElem?_append_left hlt', hk']
        exact Nat.ne_of_lt hlt' (hd.inj hk'' hat hb' hb hbase)
      have hno : ¬(accepted log).length < (received log).length := by omega
      rw [Function.update_self]
      simp [slotOf, hnew, hno, ← hb]
    · have hne : k % cocarrierSize ≠ (accepted log).length % cocarrierSize := fun hmod =>
        heq (ringSlot_inj hlt (Nat.lt_succ_self _) hlive (by have := cocarrierSize_pos; omega) hmod)
      rw [Function.update_of_ne hne]
      rw [List.getElem?_append_left (by omega)] at hk
      exact h.slot k m b hk hb (by omega)
  · intro i hi hlt
    rw [hacc, List.length_append, List.length_singleton] at hi
    have hne : i ≠ (accepted log).length % cocarrierSize := by
      rw [Nat.mod_eq_of_lt (by omega)]
      omega
    rw [hbuf, hslot, Function.update_of_ne hne]
    exact h.unused i (by omega) hlt
  · intro buf hmem
    have hold : (Call.comsgFree buf, Reply.freed) ∈ log := by simpa using hmem
    obtain ⟨k, m, b, hk, hb, hbase⟩ := h.freed buf hold
    refine ⟨k, m, b, ?_, hb, hbase⟩
    rw [hacc, List.getElem?_append_left (List.getElem?_eq_some_iff.mp hk).1, hk]

theorem slotsOk_recv {msg : Message} (h : SlotsOk port log) (hcounts : Accounted port log)
    (hcounts' : Accounted port' (log ++ [(Call.corecv, Reply.received msg)]))
    (hstart : port'.start = (port.start + 1) % cocarrierSize)
    (hbuf : port'.buf =
      Function.update port.buf port.start { port.buf port.start with recvd := true }) :
    SlotsOk port' (log ++ [(Call.corecv, Reply.received msg)]) := by
  obtain ⟨htotal, hle, -⟩ := hcounts.counts
  have hacc : accepted (log ++ [(Call.corecv, Reply.received msg)]) = accepted log :=
    accepted_snoc_none rfl
  have hrec : (received (log ++ [(Call.corecv, Reply.received msg)])).length =
      (received log).length + 1 := by
    rw [received_snoc]
    simp [receivedOf]
  -- The message that was taken is one that was accepted.
  have hlt : (received log).length < (accepted log).length := by
    have := hcounts'.counts.1
    rw [hacc, hrec] at this
    omega
  have hfreedIn := freedIn_of_quiet (e := (.corecv, .received msg)) log fun _ => rfl
  constructor
  · rw [hrec, hstart, h.start, Nat.mod_add_mod]
  · intro k m b hk hb hlive
    rw [hacc] at hk hlive
    have hklt := (List.getElem?_eq_some_iff.mp hk).1
    have hold := h.slot k m b hk hb hlive
    rw [hbuf, h.start]
    by_cases heq : k = (received log).length
    · subst heq
      rw [Function.update_self, hold]
      simp [slotOf, hfreedIn, hrec]
    · have hne : k % cocarrierSize ≠ (received log).length % cocarrierSize := fun hmod =>
        heq (ringSlot_inj hklt hlt hlive (by omega) hmod)
      have hiff : k < (received log).length + 1 ↔ k < (received log).length := by omega
      rw [Function.update_of_ne hne, hold]
      simp [slotOf, hfreedIn, hrec, hiff]
  · intro i hi hisize
    rw [hacc] at hi
    have hne : i ≠ (received log).length % cocarrierSize := by
      rw [Nat.mod_eq_of_lt (by omega)]
      omega
    rw [hbuf, h.start, Function.update_of_ne hne]
    exact h.unused i hi hisize
  · intro buf hmem
    have hold : (Call.comsgFree buf, Reply.freed) ∈ log := by simpa using hmem
    rw [hacc]
    exact h.freed buf hold

theorem slotsOk_free {buf : MsgBuf} {i : Nat} (h : SlotsOk port log)
    (hd : DistinctBuffers (accepted (log ++ [(Call.comsgFree buf, Reply.freed)])))
    (hi : i < cocarrierSize) (hf : freeable port buf i = true) (hstart : port'.start = port.start)
    (hbuf : port'.buf = Function.update port.buf i { port.buf i with
      freed := true, msg := { (port.buf i).msg with buf := none } }) :
    SlotsOk port' (log ++ [(Call.comsgFree buf, Reply.freed)]) := by
  have hacc : accepted (log ++ [(Call.comsgFree buf, Reply.freed)]) = accepted log :=
    accepted_snoc_none rfl
  have hrec : received (log ++ [(Call.comsgFree buf, Reply.freed)]) = received log :=
    received_snoc_none rfl
  rw [hacc] at hd
  obtain ⟨k₀, m₀, b₀, hk₀, hb₀, hlive₀, hmod, hrecvd, hfreed, hbase, hlen⟩ := h.owner hd hi hf
  have hlt₀ := (List.getElem?_eq_some_iff.mp hk₀).1
  subst hmod
  constructor
  · rw [hrec, hstart, h.start]
  · intro k m b hk hb hlive
    rw [hacc] at hk hlive
    rw [hbuf]
    by_cases heq : k = k₀
    · subst heq
      obtain rfl : m₀ = m := Option.some.inj (hk₀.symm.trans hk)
      obtain rfl : b₀ = b := Option.some.inj (hb₀.symm.trans hb)
      rw [Function.update_self, h.slot k m₀ b₀ hk hb hlive]
      simp [slotOf, freedIn_snoc, frees, hbase, hlen, hrec]
    · have hne : k % cocarrierSize ≠ k₀ % cocarrierSize := fun hmod =>
        heq (ringSlot_inj (List.getElem?_eq_some_iff.mp hk).1 hlt₀ hlive hlive₀ hmod)
      have hbase' : b.base ≠ buf.base := fun hsame =>
        heq (hd.inj hk hk₀ hb hb₀ (hsame.trans hbase.symm))
      rw [Function.update_of_ne hne, h.slot k m b hk hb hlive]
      simp [slotOf, freedIn_snoc, frees, hbase', hrec]
  · intro j hj hjsize
    rw [hacc] at hj
    have hne : j ≠ k₀ % cocarrierSize := by
      have := Nat.mod_le k₀ cocarrierSize
      omega
    rw [hbuf, Function.update_of_ne hne]
    exact h.unused j hj hjsize
  · intro buf' hmem
    rw [hacc]
    rcases List.mem_append.mp hmem with hold | hnew
    · exact h.freed buf' hold
    · cases List.mem_singleton.mp hnew
      exact ⟨k₀, m₀, b₀, hk₀, hb₀, hbase⟩

theorem slotsOk_quiet {e : Call × Reply} (h : SlotsOk port log) (ha : acceptedOf e = none)
    (hr : receivedOf e = none) (hne : e.2 ≠ .freed) (hstart : port'.start = port.start)
    (hbuf : port'.buf = port.buf) : SlotsOk port' (log ++ [e]) := by
  have hacc : accepted (log ++ [e]) = accepted log := accepted_snoc_none ha
  have hrec : received (log ++ [e]) = received log := received_snoc_none hr
  have hfrees (b : MsgBuf) : frees b e = false := by
    unfold frees
    split
    · exact absurd rfl hne
    · rfl
  constructor
  · rw [hrec, hstart, h.start]
  · intro k m b hk hb hlive
    rw [hacc] at hk hlive
    rw [hbuf, h.slot k m b hk hb hlive]
    simp only [slotOf, freedIn_of_quiet log hfrees, hrec]
  · intro i hi hisize
    rw [hbuf]
    rw [hacc] at hi
    exact h.unused i hi hisize
  · intro buf hmem
    rw [hacc]
    rcases List.mem_append.mp hmem with hold | hnew
    · exact h.freed buf hold
    · rw [← List.mem_singleton.mp hnew] at hne
      exact absurd rfl hne

/-- A call keeps the slots in step with the log. -/
theorem slotsOk_step {c : Call} {reply : Reply} (h : SlotsOk port log)
    (hcounts : Accounted port log) (hcounts' : Accounted port' (log ++ [(c, reply)]))
    (hd : DistinctBuffers (accepted (log ++ [(c, reply)])))
    (hs : callStep port c = some (port', reply)) : SlotsOk port' (log ++ [(c, reply)]) := by
  rcases callStep_slots hs with ⟨msg, msgLen, rfl, rfl, hstart, hbuf⟩ | ⟨rfl, rfl, hstart, hbuf⟩ |
    ⟨buf, i, rfl, rfl, hi, hf, hstart, hbuf⟩ | ⟨ha, hr, hne, hstart, hbuf⟩
  · exact slotsOk_send h hcounts hd hstart hbuf
  · exact slotsOk_recv h hcounts hcounts' hstart hbuf
  · exact slotsOk_free h hd hi hf hstart hbuf
  · exact slotsOk_quiet h ha hr hne hstart hbuf

/-- The port after a run with the log `log`, when every accepted message has a buffer of its
own. -/
def Remembers (port : Coport) (log : List (Call × Reply)) : Prop :=
  Accounted port log ∧ (DistinctBuffers (accepted log) → SlotsOk port log)

theorem remembers_step (port : Coport) (log : List (Call × Reply)) (c : Call)
    (h : Remembers port log) :
    ∃ port' reply, callStep port c = some (port', reply) ∧
      Remembers port' (log ++ [(c, reply)]) := by
  obtain ⟨hcounts, hslots⟩ := h
  obtain ⟨port', reply, hs, hcounts'⟩ := accounted_step port log c hcounts
  refine ⟨port', reply, hs, hcounts', fun hd => ?_⟩
  have hbefore : DistinctBuffers (accepted log) := by
    rw [accepted_snoc] at hd
    exact hd.of_append
  exact slotsOk_step (hslots hbefore) hcounts hcounts' hd hs

end Steps

theorem slotsOk_init : SlotsOk initCoport [] where
  start := rfl
  slot k m b hk := by cases hk
  unused i _ _ := rfl
  freed buf hmem := by cases hmem

/-- Every run completes, and the port remembers the last messages. -/
theorem remembers_run (calls : List Call) :
    ∃ port log, runLog callStep initCoport calls = some (port, log) ∧ Remembers port log := by
  obtain ⟨port, log, hrun, hrel⟩ :=
    runLog_total remembers_step calls initCoport [] ⟨accounted_init, fun _ => slotsOk_init⟩
  rw [List.nil_append] at hrel
  exact ⟨port, log, hrun, hrel⟩

/-- What is promised of the `k`-th accepted message, whose buffer is `b`: once it was received it
can be freed, only once, and not while it is queued. -/
structure FreedOnce (port : Coport) (log : List (Call × Reply)) (k : Nat) (b : MsgBuf) : Prop where
  once : k < (received log).length → freedIn log b = false → (freeComsg port b).reply = .freed
  again : freedIn log b = true → (freeComsg port b).reply = .err .einval
  queued : (received log).length ≤ k → (freeComsg port b).reply = .err .einval
  others : ∀ buf, Queued (freeComsg port buf).port (outstanding log)

/-- A received message can be freed, exactly when fewer than `COCARRIER_SIZE` messages were
accepted after it. -/
theorem free_once_iff {calls : List Call} {port : Coport} {log : List (Call × Reply)} {k : Nat}
    {m : Message} {b : MsgBuf} (hrun : runLog callStep initCoport calls = some (port, log))
    (hd : DistinctBuffers (accepted log)) (hk : (accepted log)[k]? = some m)
    (hb : m.buf = some b) : FreedOnce port log k b ↔
      (k < (received log).length → freedIn log b = false →
        (accepted log).length ≤ k + cocarrierSize) := by
  obtain ⟨port', log', hrun', hcounts, hslots⟩ := remembers_run calls
  obtain ⟨rfl, rfl⟩ : port' = port ∧ log' = log := by
    rw [hrun] at hrun'
    cases hrun'
    exact ⟨rfl, rfl⟩
  have hiff := free_reply_iff (hslots hd) hd hk hb
  -- Where it does not free, it fails.
  have hfails (hno : ¬(k < (received log').length ∧ freedIn log' b = false ∧
      (accepted log').length ≤ k + cocarrierSize)) : (freeComsg port' b).reply = .err .einval := by
    rcases free_reply_cases port' b with hfree | herr
    · exact absurd (hiff.mp hfree) hno
    · exact herr
  constructor
  · intro h hrecvd hnot
    exact (hiff.mp (h.once hrecvd hnot)).2.2
  · intro hroom
    constructor
    · intro hrecvd hnot
      exact hiff.mpr ⟨hrecvd, hnot, hroom hrecvd hnot⟩
    · intro hfreed
      exact hfails fun hall => by simp [hfreed] at hall
    · intro hqueued
      exact hfails fun hall => absurd hall.1 (Nat.not_lt.mpr hqueued)
    · intro buf
      exact (idle_free hcounts.idle buf).1.queued

/-! ### Rounds of a send and a receive -/

/-- A message of one byte in buffer `i`. -/
def messageAt (i : Nat) : Message := ⟨some ⟨i, [0]⟩, none, 0⟩

/-- `n` messages that are sent and received one after the other. -/
def rounds (n : Nat) : List Call :=
  (List.range n).flatMap fun i => [.cosend (messageAt i) 1, .corecv]

theorem distinctBuffers_rounds (n : Nat) : DistinctBuffers ((List.range n).map messageAt) where
  there m hm := by
    obtain ⟨i, -, rfl⟩ := List.mem_map.mp hm
    exact ⟨⟨i, [0]⟩, rfl⟩
  nodup := by
    rw [List.map_map]
    refine List.nodup_range.map fun i j hij => ?_
    simpa [messageAt] using hij

/-- Their log. -/
def roundsLog (n : Nat) : List (Call × Reply) :=
  (List.range n).flatMap fun i =>
    [(.cosend (messageAt i) 1, .sent 1), (.corecv, .received (messageAt i))]

theorem roundsLog_succ (n : Nat) : roundsLog (n + 1) =
    roundsLog n ++ [(Call.cosend (messageAt n) 1, Reply.sent 1),
      (Call.corecv, Reply.received (messageAt n))] := by
  simp [roundsLog, List.range_succ]

theorem accepted_roundsLog (n : Nat) : accepted (roundsLog n) = (List.range n).map messageAt := by
  induction n with
  | zero => rfl
  | succ n ih =>
    rw [roundsLog_succ, accepted, List.filterMap_append, List.range_succ, List.map_append, ← ih]
    rfl

theorem received_roundsLog (n : Nat) : received (roundsLog n) = (List.range n).map messageAt := by
  induction n with
  | zero => rfl
  | succ n ih =>
    rw [roundsLog_succ, received, List.filterMap_append, List.range_succ, List.map_append, ← ih]
    rfl

theorem freedIn_roundsLog (n : Nat) (b : MsgBuf) : freedIn (roundsLog n) b = false := by
  simp [freedIn, roundsLog, frees]

/-- The rounds leave an empty port. -/
theorem run_rounds (n : Nat) :
    ∃ port, runLog callStep initCoport (rounds n) = some (port, roundsLog n) ∧
      Idle port [] false := by
  induction n with
  | zero => exact ⟨initCoport, rfl, idle_init⟩
  | succ n ih =>
    obtain ⟨port, hrun, hidle⟩ := ih
    obtain ⟨port₁, hsend, hidle₁⟩ := send_accepted hidle (by decide) (messageAt n) 1
    obtain ⟨port₂, hrecv, hidle₂, -⟩ := recv_taken hidle₁
    have hround : runLog callStep port [.cosend (messageAt n) 1, .corecv] =
        some (port₂, [(.cosend (messageAt n) 1, .sent 1), (.corecv, .received (messageAt n))]) := by
      simp [runLog, callStep, callOutcome, hsend, hrecv]
    refine ⟨port₂, ?_, hidle₂⟩
    rw [rounds, List.range_succ, List.flatMap_append, roundsLog_succ]
    exact runLog_append _ _ hrun hround

/-- The first of two messages can still be freed. -/
theorem free_once_iff_two :
    ∃ port, runLog callStep initCoport (rounds 2) = some (port, roundsLog 2) ∧
      (freeComsg port ⟨0, [0]⟩).reply = .freed := by
  obtain ⟨port, hrun, -⟩ := run_rounds 2
  have hd : DistinctBuffers (accepted (roundsLog 2)) :=
    accepted_roundsLog 2 ▸ distinctBuffers_rounds 2
  have honce : FreedOnce port (roundsLog 2) 0 ⟨0, [0]⟩ :=
    (free_once_iff (m := messageAt 0) hrun hd (by decide) rfl).mpr fun _ _ => by decide
  exact ⟨port, hrun, honce.once (by decide) (freedIn_roundsLog 2 _)⟩

/-- After `COCARRIER_SIZE` more messages, the first one cannot be freed, though it was received and
not freed. -/
theorem received_message_lost :
    ∃ port log, runLog callStep initCoport (rounds (cocarrierSize + 1)) = some (port, log) ∧
      DistinctBuffers (accepted log) ∧ (received log)[0]? = some (messageAt 0) ∧
      freedIn log ⟨0, [0]⟩ = false ∧ (freeComsg port ⟨0, [0]⟩).reply = .err .einval := by
  obtain ⟨port, log, hrun, -, hslots⟩ := remembers_run (rounds (cocarrierSize + 1))
  obtain rfl : log = roundsLog (cocarrierSize + 1) := by
    obtain ⟨port', hrun', -⟩ := run_rounds (cocarrierSize + 1)
    rw [hrun] at hrun'
    cases hrun'
    rfl
  have hacc := accepted_roundsLog (cocarrierSize + 1)
  have hd : DistinctBuffers (accepted (roundsLog (cocarrierSize + 1))) :=
    hacc ▸ distinctBuffers_rounds _
  have hk : (accepted (roundsLog (cocarrierSize + 1)))[0]? = some (messageAt 0) := by simp [hacc]
  refine ⟨port, _, hrun, hd, by simp [received_roundsLog], freedIn_roundsLog _ _, ?_⟩
  rcases free_reply_cases port ⟨0, [0]⟩ with hfree | herr
  · have hlive := ((free_reply_iff (hslots hd) hd hk rfl).mp hfree).2.2
    rw [hacc, List.length_map, List.length_range] at hlive
    omega
  · exact herr

end Comsg.Proofs.Ipcd
