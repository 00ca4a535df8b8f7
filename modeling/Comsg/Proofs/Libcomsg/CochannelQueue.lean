import Comsg.Proofs.Libcomsg.CochannelCalls

/-!
# `Comsg.Proofs.Libcomsg.CochannelQueue`: a cochannel is a queue of bytes

`contents` reads the buffered bytes off the ring, from `start` on. A send that fits appends its
message to them, and a receive takes its bytes from their front (`QueueOps`). This holds for every
offset, since `locked_send` and `locked_recv` split the copy at the end of the ring themselves.

A send that does not fit is to fail. The test of `cochannel_send` is on the sum of two `size_t`
values, which wraps for lengths close to 2^64. `queueOps_iff` says that nothing else goes wrong.
-/

set_option autoImplicit false

namespace Comsg.Proofs.Libcomsg

open Comsg.Lib
open Comsg.Libcomsg

/-- The buffered bytes, oldest first. -/
def contents (port : Cochannel) : List UInt8 :=
  ringList coportBufLen port.start.toNat port.length.toNat fun i => port.buf.getD i 0

section Contents
variable {port : Cochannel} {unread : List UInt8}

theorem Holds.contents_eq (h : Holds port unread) : contents port = unread := by
  have hcells := RingHolds.contents h
  refine List.map_injective_iff.mpr (Option.some_injective UInt8) ?_
  rw [← hcells, contents, map_ringList]
  refine ringList_congr fun i hi => ?_
  -- A cell of the window is within the buffer, since the window holds a byte there.
  have hcell := RingHolds.getElem? h hi
  rw [List.getElem?_map] at hcell
  cases hbyte : port.buf[(port.start.toNat + i) % coportBufLen]? with
  | none =>
    rw [hbyte] at hcell
    cases hu : unread[i]? <;> simp [hu] at hcell
  | some b => simp [List.getD, hbyte]

theorem RingState.holds (h : RingState port) : Holds port (contents port) where
  start_lt := h.start_lt
  len_le := h.ring.length_le
  stop_eq := h.ring.end_eq
  contents := by
    rw [contents, map_ringList]
    refine ringList_congr fun i _ => ?_
    have hlt : (port.start.toNat + i) % coportBufLen < port.buf.length := by
      rw [h.buf_length]
      exact Nat.mod_lt _ (by decide)
    simp [hlt]

end Contents

/-- A send and a receive of `len` bytes are what a queue does. The message is the first `len`
bytes of `buf`. -/
structure QueueOps (port : Cochannel) (buf : List UInt8) (len : SizeT) : Prop where
  send : 0 < len.toNat → len.toNat ≤ coportBufLen - port.length.toNat → len.toNat ≤ buf.length →
    ∃ port', port.cochannelSend buf len = some (port', .sent len) ∧ RingState port' ∧
      contents port' = contents port ++ buf.take len.toNat
  recv : 0 < len.toNat → len.toNat ≤ port.length.toNat → len.toNat ≤ buf.length →
    ∃ port', port.cochannelRecv buf len =
        some (port', .received len ((contents port).take len.toNat ++ buf.drop len.toNat)) ∧
      RingState port' ∧ contents port' = (contents port).drop len.toNat
  full : coportBufLen - port.length.toNat < len.toNat →
    ∃ error, port.cochannelSend buf len = some (port, .err error)

section Calls
variable {port : Cochannel} {buf : List UInt8} {len : SizeT}

/-- A send that passes the test of the length runs its locked section. -/
theorem cochannelSend_eq_locked (h : RingState port) (hfit : ¬bufLen < len + port.length) :
    port.cochannelSend buf len = (Call.cosend buf len).locked port port.length := by
  rw [cochannelSend_of_open h.status_eq hfit, locked_send_of_open h.status_eq]

theorem cochannelRecv_eq_locked (h : RingState port) (hargs : len.toNat ≤ buf.length) :
    port.cochannelRecv buf len = (Call.corecv buf len).locked port port.length := by
  rw [cochannelRecv_of_open h.status_eq hargs, locked_recv_of_open h.status_eq]

theorem send_appends (h : RingState port) (hpos : 0 < len.toNat)
    (hroom : len.toNat ≤ coportBufLen - port.length.toNat) (hargs : len.toNat ≤ buf.length) :
    ∃ port', port.cochannelSend buf len = some (port', .sent len) ∧ RingState port' ∧
      contents port' = contents port ++ buf.take len.toNat := by
  have hle := h.ring.length_le
  have hlen : len.toNat + port.length.toNat ≤ coportBufLen := by omega
  have hout : Meets port.event copollOut := h.ring.out_iff.mpr (by omega)
  have hfit : ¬bufLen < len + port.length := by
    rw [BitVec.lt_def, toNat_bufLen,
      BitVec.toNat_add_of_lt (by simp only [coportBufLen] at hlen; omega)]
    omega
  obtain ⟨port', hl, hring, hholds⟩ := locked_send h h.holds hargs hpos hlen hout
  exact ⟨port', (cochannelSend_eq_locked h hfit).trans hl, hring, hholds.contents_eq⟩

theorem recv_takes (h : RingState port) (hpos : 0 < len.toNat)
    (hlen : len.toNat ≤ port.length.toNat) (hargs : len.toNat ≤ buf.length) :
    ∃ port', port.cochannelRecv buf len =
        some (port', .received len ((contents port).take len.toNat ++ buf.drop len.toNat)) ∧
      RingState port' ∧ contents port' = (contents port).drop len.toNat := by
  have hin : Meets port.event copollIn := h.ring.in_iff.mpr (by omega)
  obtain ⟨port', hl, hring, hholds⟩ := locked_recv h h.holds hargs hpos hlen hin
  exact ⟨port', (cochannelRecv_eq_locked h hargs).trans hl, hring, hholds.contents_eq⟩

/-- A send that does not fit fails, when the sum does not wrap or the ring is full. -/
theorem send_refused (h : RingState port) (hover : coportBufLen - port.length.toNat < len.toNat)
    (hsum : port.length.toNat = coportBufLen ∨ len.toNat + port.length.toNat < 2 ^ 64) :
    ∃ error, port.cochannelSend buf len = some (port, .err error) := by
  by_cases hfit : bufLen < len + port.length
  · exact ⟨.ewouldblock, by simp [Cochannel.cochannelSend, hfit]⟩
  · rcases hsum with hfull | hlt
    · -- The sum has wrapped, but a full ring has `COPOLL_OUT` cleared.
      have hnot : ¬Proceeds port (.cosend buf len) := by
        intro hout
        have hlt := h.ring.out_iff.mp hout
        omega
      exact ⟨.eagain, (cochannelSend_eq_locked h hfit).trans (locked_again h hnot _)⟩
    · rw [BitVec.lt_def, toNat_bufLen, BitVec.toNat_add_of_lt hlt] at hfit
      omega

/-- When the sum wraps and the ring is not full, the send goes ahead. -/
theorem send_not_refused (h : RingState port) (hroom : port.length.toNat ≠ coportBufLen)
    (hwrap : 2 ^ 64 ≤ len.toNat + port.length.toNat) (error : Errno) :
    port.cochannelSend buf len ≠ some (port, .err error) := by
  have hle := h.ring.length_le
  have hlt := len.isLt
  have hout : Meets port.event copollOut := h.ring.out_iff.mpr (by omega)
  -- The length of the ring is at most 4096, so the sum is below that after the wrap.
  have hfit : ¬bufLen < len + port.length := by
    rw [BitVec.lt_def, toNat_bufLen, BitVec.toNat_add]
    omega
  rw [cochannelSend_of_open h.status_eq hfit]
  -- `COPOLL_OUT` is set, so the section copies: it answers with a length or faults.
  simp only [Cochannel.sendLocked, hout, if_true]
  intro heq
  obtain ⟨⟨ring, copied⟩, -, heq⟩ := Option.bind_eq_some_iff.mp heq
  have hreply : Reply.sent copied = .err error := congrArg Prod.snd (Option.some.inj heq)
  cases hreply

/-- There is nothing to copy under `NULL`. -/
theorem copyIn_nil (hfit : ¬bufLen < port.end_ + len) (hpos : 0 < len.toNat) :
    port.copyIn [] len = none := by
  have hcopy : memcpy port.buf port.end_.toNat [] 0 len.toNat = none := by
    refine if_neg ?_
    rintro ⟨-, hread⟩
    simp only [List.length_nil] at hread
    omega
  simp only [Cochannel.copyIn, if_neg hfit, hcopy, Option.bind_eq_bind, Option.bind_none]

end Calls

/-- The operations of a cochannel are those of a queue of bytes, at every offset, except that a
send whose length wraps the sum goes ahead on a ring that is not full. -/
theorem queueOps_iff {port : Cochannel} (h : RingState port) (buf : List UInt8) (len : SizeT) :
    QueueOps port buf len ↔
      port.length.toNat = coportBufLen ∨ len.toNat + port.length.toNat < 2 ^ 64 := by
  constructor
  · intro hops
    by_contra hnot
    rw [not_or, Nat.not_lt] at hnot
    have hle := h.ring.length_le
    have hover : coportBufLen - port.length.toNat < len.toNat := by
      have hwrap := hnot.2
      simp only [coportBufLen] at hle ⊢
      omega
    obtain ⟨error, herr⟩ := hops.full hover
    exact send_not_refused h hnot.1 hnot.2 error herr
  · intro hsum
    exact ⟨send_appends h, recv_takes h, fun hover => send_refused h hover hsum⟩

/-- A ring state whose next message wraps: one byte is free before the end of the ring. -/
def nearEnd : Cochannel where
  length := 1
  start := 4094
  end_ := 4095
  status := .coportOpen
  event := copollIn ||| copollOut
  buf := List.replicate coportBufLen 7

theorem nearEnd_ringState : RingState nearEnd :=
  ⟨⟨by decide, by decide, by decide, by decide⟩, by decide, rfl, by simp [nearEnd]⟩

/-- Two bytes are sent over the end of the ring. -/
theorem queueOps_iff_nearEnd :
    ∃ port', nearEnd.cochannelSend [8, 9] 2 = some (port', .sent 2) ∧
      contents port' = contents nearEnd ++ [8, 9] := by
  have hops := (queueOps_iff nearEnd_ringState [8, 9] 2).mpr (.inr (by decide))
  obtain ⟨port', hsend, -, hbytes⟩ := hops.send (by decide) (by decide) (by decide)
  exact ⟨port', hsend, hbytes⟩

/-- One byte is buffered, and `cochannel_send` is called with `NULL` and the length of `NULL`. The
new length is 0, and the copy faults with the port in `COPORT_BUSY`. -/
theorem send_of_null_faults :
    RingState (oneByteCochannel (List.replicate coportBufLen 0)) ∧
      coportBufLen - (oneByteCochannel (List.replicate coportBufLen 0)).length.toNat <
        (BitVec.allOnes 64).toNat ∧
      (oneByteCochannel (List.replicate coportBufLen 0)).cochannelSend [] (BitVec.allOnes 64) =
        none := by
  have hring : RingState (oneByteCochannel (List.replicate coportBufLen 0)) :=
    ⟨⟨by decide, by decide, by decide, by decide⟩, by decide, rfl, by simp [oneByteCochannel]⟩
  refine ⟨hring, by decide, ?_⟩
  rw [cochannelSend_of_open rfl (by decide)]
  unfold Cochannel.sendLocked
  rw [copyIn_nil (by decide) (by decide)]
  exact if_pos (by decide)

end Comsg.Proofs.Libcomsg
