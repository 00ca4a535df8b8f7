import Comsg.Lib.Transition
import Comsg.Libcomsg.Cochannel

/-!
# `Comsg.Proofs.Libcomsg.CochannelRing`: the ring of a cochannel

`cochannel_send` compares the new length with the size of the ring before it copies.
`cochannel_recv` subtracts the requested length from the length of the contents without a
test, so a receive that asks for more than there is takes bytes that nobody sent, and the
length wraps (`recv_wraps_length`).

`cochannel_ring_invariant` is about the runs in which every receive that finds `COPOLL_IN`
asks for at most what is there, and no sum of a send wraps (`Fits`). There the ring invariant
`RingOk` holds in every state, every call returns, and a receive shortens the contents by what
it returns.
-/

set_option autoImplicit false

namespace Comsg.Proofs.Libcomsg

open Comsg.Lib
open Comsg.Libcomsg
open Comsg.Libcomsg.Cochannel (sentEvent takenEvent)

/-- The invariant of the ring. -/
structure RingOk (port : Cochannel) : Prop where
  length_le : port.length.toNat ≤ coportBufLen
  end_eq : port.end_.toNat = (port.start.toNat + port.length.toNat) % coportBufLen
  in_iff : Meets port.event copollIn ↔ 0 < port.length.toNat
  out_iff : Meets port.event copollOut ↔ port.length.toNat < coportBufLen

/-- The lengths of the call fit. A receive that finds `COPOLL_IN` asks for at most what is
there, and the new length of a send that finds `COPOLL_OUT` does not wrap. -/
def Fits (port : Cochannel) : Call → Prop
  | .cosend buf len => validateCoportOpArgs buf len = none → Meets port.event copollOut →
      len.toNat + port.length.toNat < 2 ^ 64
  | .corecv buf len => validateCoportOpArgs buf len = none → Meets port.event copollIn →
      len.toNat ≤ port.length.toNat

/-- A cochannel between two calls. -/
structure RingState (port : Cochannel) : Prop where
  ring : RingOk port
  start_lt : port.start.toNat < coportBufLen
  status_eq : port.status = .coportOpen
  buf_length : port.buf.length = coportBufLen

/-! ### Event masks -/

@[simp] theorem sentEvent_in (event : CoportEventmask) (n : SizeT) :
    Meets (sentEvent event n) copollIn := by
  rw [meets_in]
  unfold sentEvent
  split <;> simp [copollIn, copollOut]

@[simp] theorem sentEvent_out (event : CoportEventmask) (n : SizeT) :
    Meets (sentEvent event n) copollOut ↔ n ≠ bufLen ∧ Meets event copollOut := by
  simp only [meets_out]
  unfold sentEvent
  split <;> rename_i h <;> simp [h, copollIn, copollOut]

@[simp] theorem takenEvent_in (event : CoportEventmask) (n : SizeT) :
    Meets (takenEvent event n) copollIn ↔ n ≠ 0 ∧ Meets event copollIn := by
  simp only [meets_in]
  unfold takenEvent
  split <;> simp_all [copollIn, copollOut]

@[simp] theorem takenEvent_out (event : CoportEventmask) (n : SizeT) :
    Meets (takenEvent event n) copollOut := by
  rw [meets_out]
  unfold takenEvent
  split <;> simp [copollIn, copollOut]

/-! ### Sizes -/

theorem toNat_bufLen : bufLen.toNat = coportBufLen := rfl

section Calls
variable {port port' : Cochannel} {buf : List UInt8} {len : SizeT} {reply : Reply}

theorem RingState.end_lt (h : RingState port) : port.end_.toNat < coportBufLen := by
  rw [h.ring.end_eq]
  exact Nat.mod_lt _ (by decide)

/-- The sum of an index and a length of the ring does not wrap. -/
theorem toNat_add_of_ring {a b : SizeT} (ha : a.toNat < coportBufLen)
    (hb : b.toNat ≤ coportBufLen) : (a + b).toNat = a.toNat + b.toNat := by
  refine BitVec.toNat_add_of_lt ?_
  simp only [coportBufLen] at ha hb
  omega

/-- An index of the ring after a step of `b` bytes. -/
theorem toNat_advance {a b : SizeT} (ha : a.toNat < coportBufLen) (hb : b.toNat ≤ coportBufLen) :
    ((a + b) % bufLen).toNat = (a.toNat + b.toNat) % coportBufLen := by
  rw [BitVec.toNat_umod, toNat_add_of_ring ha hb, toNat_bufLen]

/-- The part of the ring from an index to its end. -/
theorem toNat_toEnd {a : SizeT} (ha : a.toNat < coportBufLen) :
    (bufLen - a).toNat = coportBufLen - a.toNat :=
  BitVec.toNat_sub_of_le (BitVec.le_def.mpr (Nat.le_of_lt ha))

/-- Whether a transfer of `b` bytes from index `a` runs over the end of the ring, and the part
after the end if it does. -/
theorem wrap_cases {a b : SizeT} (ha : a.toNat < coportBufLen) (hb : b.toNat ≤ coportBufLen) :
    (bufLen < a + b ∧ coportBufLen < a.toNat + b.toNat ∧
      ((a + b) % bufLen).toNat = a.toNat + b.toNat - coportBufLen) ∨
    (¬bufLen < a + b ∧ a.toNat + b.toNat ≤ coportBufLen) := by
  have hsum := toNat_add_of_ring ha hb
  rw [BitVec.lt_def, hsum, toNat_bufLen, toNat_advance ha hb]
  by_cases hwrap : coportBufLen < a.toNat + b.toNat
  · refine .inl ⟨hwrap, hwrap, ?_⟩
    rw [Nat.mod_eq_sub_mod (Nat.le_of_lt hwrap), Nat.mod_eq_of_lt (by omega)]
  · exact .inr ⟨hwrap, by omega⟩

/-- The copy of a send that fits does not fault, and copies all of it. -/
theorem copyIn_of_ring (hring : port.buf.length = coportBufLen)
    (hend : port.end_.toNat < coportBufLen) (hlen : len.toNat ≤ coportBufLen)
    (hargs : len.toNat ≤ buf.length) :
    ∃ ring, port.copyIn buf len = some (ring, len) ∧ ring.length = coportBufLen := by
  have htoEnd := toNat_toEnd hend
  unfold Cochannel.copyIn
  obtain ⟨hwrap, hover, hrest⟩ | ⟨hwrap, hfit⟩ := wrap_cases hend hlen
  · obtain ⟨first, hfirst, hlength⟩ : ∃ first, memcpy port.buf port.end_.toNat buf 0
        (bufLen - port.end_).toNat = some first ∧ first.length = port.buf.length :=
      exists_memcpy (by omega) (by omega)
    obtain ⟨both, hboth, hlength'⟩ : ∃ both, memcpy first 0 buf (bufLen - port.end_).toNat
        ((port.end_ + len) % bufLen).toNat = some both ∧ both.length = first.length :=
      exists_memcpy (by omega) (by omega)
    -- The two parts are the whole message.
    have hcopied : bufLen - port.end_ + (port.end_ + len) % bufLen = len := by
      refine BitVec.eq_of_toNat_eq ?_
      rw [BitVec.toNat_add_of_lt (by omega), htoEnd, hrest]
      omega
    refine ⟨both, ?_, by omega⟩
    simp only [if_pos hwrap, hfirst, hboth, hcopied, Option.bind_eq_bind, Option.bind_some]
  · obtain ⟨ring, hcopy, hlength⟩ : ∃ ring, memcpy port.buf port.end_.toNat buf 0 len.toNat =
        some ring ∧ ring.length = port.buf.length :=
      exists_memcpy (by omega) (by omega)
    refine ⟨ring, ?_, by omega⟩
    simp only [if_neg hwrap, hcopy, Option.bind_eq_bind, Option.bind_some]

/-- The copy of a receive of at most the size of the ring does not fault. -/
theorem copyOut_of_ring (hring : port.buf.length = coportBufLen)
    (hstart : port.start.toNat < coportBufLen) (hlen : len.toNat ≤ coportBufLen)
    (hargs : len.toNat ≤ buf.length) : ∃ out, port.copyOut buf len = some out := by
  have htoEnd := toNat_toEnd hstart
  -- The receive asks the capability for the length of the ring, the send uses the constant.
  have hcap : BitVec.ofNat 64 port.buf.length = bufLen := by rw [hring]; rfl
  unfold Cochannel.copyOut
  rw [hcap]
  obtain ⟨hwrap, hover, hrest⟩ | ⟨hwrap, hfit⟩ := wrap_cases hstart hlen
  · obtain ⟨first, hfirst, hlength⟩ : ∃ first, memcpy buf 0 port.buf port.start.toNat
        (bufLen - port.start).toNat = some first ∧ first.length = buf.length :=
      exists_memcpy (by omega) (by omega)
    obtain ⟨both, hboth, -⟩ : ∃ both, memcpy first (bufLen - port.start).toNat port.buf 0
        ((port.start + len) % bufLen).toNat = some both ∧ both.length = first.length :=
      exists_memcpy (by omega) (by omega)
    refine ⟨both, ?_⟩
    simp only [if_pos hwrap, hfirst, hboth, Option.bind_eq_bind, Option.bind_some]
  · obtain ⟨out, hcopy, -⟩ : ∃ out, memcpy buf 0 port.buf port.start.toNat len.toNat =
        some out ∧ out.length = buf.length :=
      exists_memcpy (by omega) (by omega)
    refine ⟨out, ?_⟩
    simp only [if_neg hwrap, hcopy]

/-! ### The calls keep the invariant -/

/-- The arguments a call is admitted with. -/
theorem validate_eq_none : validateCoportOpArgs buf len = none ↔
    len.toNat ≤ buf.length ∧ 0 < len.toNat := by
  have hzero : len = 0 ↔ len.toNat = 0 := BitVec.toNat_eq
  unfold validateCoportOpArgs
  simp only [hzero]
  split
  · simp
    omega
  · split
    · simp
      omega
    · simp
      omega

theorem cochannelSend_of_open (hst : port.status = .coportOpen)
    (hfit : ¬bufLen < len + port.length) : port.cochannelSend buf len =
      Cochannel.sendLocked { port with status := .coportBusy } buf len (len + port.length) := by
  simp [Cochannel.cochannelSend, hfit, hst, acquireCoportStatus]

theorem cochannelRecv_of_open (hst : port.status = .coportOpen) (hargs : len.toNat ≤ buf.length) :
    port.cochannelRecv buf len =
      Cochannel.recvLocked { port with status := .coportBusy } buf len (port.length - len) := by
  simp [Cochannel.cochannelRecv, hargs, hst, acquireCoportStatus]

theorem sendLocked_of_out {newLen copied : SizeT} {ring : List UInt8}
    (hout : Meets port.event copollOut) (hcopy : port.copyIn buf len = some (ring, copied)) :
    port.sendLocked buf len newLen = some ({ port with
      buf := ring
      end_ := (port.end_ + len) % bufLen
      length := newLen
      event := sentEvent port.event newLen
      status := .coportOpen }, .sent copied) := by
  simp [Cochannel.sendLocked, hout, hcopy]

theorem recvLocked_of_in {newLen : SizeT} {out : List UInt8} (hin : Meets port.event copollIn)
    (hcopy : port.copyOut buf len = some out) :
    port.recvLocked buf len newLen = some ({ port with
      length := newLen
      start := (port.start + len) % bufLen
      event := takenEvent port.event newLen
      status := .coportOpen }, .received len out) := by
  simp [Cochannel.recvLocked, hin, hcopy]

/-- The ring after a send that fits. -/
theorem sent_ringState (h : RingState port) (hpos : 0 < len.toNat)
    (hlen : len.toNat + port.length.toNat ≤ coportBufLen) (hout : Meets port.event copollOut)
    {ring : List UInt8} (hring : ring.length = coportBufLen) :
    RingState { port with
      buf := ring
      end_ := (port.end_ + len) % bufLen
      length := len + port.length
      event := sentEvent port.event (len + port.length)
      status := .coportOpen } := by
  have hnew : (len + port.length).toNat = len.toNat + port.length.toNat := by
    refine BitVec.toNat_add_of_lt ?_
    simp only [coportBufLen] at hlen
    omega
  -- The sum of `size_t` values does not wrap here, so the fields move as the numbers do.
  refine ⟨⟨?_, ?_, ?_, ?_⟩, h.start_lt, rfl, hring⟩
  · exact hnew ▸ hlen
  · have hend := toNat_advance h.end_lt (b := len) (by omega)
    simp only [hend, hnew, h.ring.end_eq, Nat.mod_add_mod]
    congr 1
    omega
  · have hlt : 0 < len.toNat + port.length.toNat := by omega
    simp only [sentEvent_in, hnew, hlt]
  · have hfull : len + port.length = bufLen ↔ len.toNat + port.length.toNat = coportBufLen := by
      rw [BitVec.toNat_eq, hnew, toNat_bufLen]
    simp only [sentEvent_out, hout, hnew, ne_eq, hfull, and_true]
    omega

/-- The ring after a receive of at most what is there. -/
theorem taken_ringState (h : RingState port) (hpos : 0 < len.toNat)
    (hlen : len.toNat ≤ port.length.toNat) (hin : Meets port.event copollIn) :
    RingState { port with
      length := port.length - len
      start := (port.start + len) % bufLen
      event := takenEvent port.event (port.length - len)
      status := .coportOpen } := by
  have hle := h.ring.length_le
  -- The one place where a receive needs its bound.
  have hnew : (port.length - len).toNat = port.length.toNat - len.toNat :=
    BitVec.toNat_sub_of_le (BitVec.le_def.mpr hlen)
  have hstart := toNat_advance h.start_lt (b := len) (by omega)
  refine ⟨⟨?_, ?_, ?_, ?_⟩, ?_, rfl, h.buf_length⟩
  · simp only [hnew]
    omega
  · simp only [hnew, hstart, h.ring.end_eq, Nat.mod_add_mod]
    congr 1
    omega
  · have hempty : port.length - len = 0 ↔ port.length.toNat - len.toNat = 0 := by
      rw [BitVec.toNat_eq, hnew]
      rfl
    simp only [takenEvent_in, hin, hnew, ne_eq, hempty, and_true]
    omega
  · have hlt : port.length.toNat - len.toNat < coportBufLen := by omega
    simp only [takenEvent_out, hnew, hlt]
  · simp only [hstart]
    exact Nat.mod_lt _ (by decide)

/-- A port that was taken and released without a change. -/
theorem RingState.reopen (h : RingState port) : { port with status := .coportOpen } = port := by
  rw [← h.status_eq]

theorem cochannelSend_ringState (h : RingState port) (hargs : len.toNat ≤ buf.length)
    (hpos : 0 < len.toNat)
    (hfit : Meets port.event copollOut → len.toNat + port.length.toNat < 2 ^ 64) :
    ∃ port' reply, port.cochannelSend buf len = some (port', reply) ∧ RingState port' := by
  -- The test is on the wrapped sum. A send that passes it may still be too long for the ring.
  by_cases hfull : bufLen < len + port.length
  · exact ⟨port, .err .ewouldblock, if_pos hfull, h⟩
  rw [cochannelSend_of_open h.status_eq hfull]
  by_cases hout : Meets port.event copollOut
  · have hlen : len.toNat + port.length.toNat ≤ coportBufLen := by
      rw [BitVec.lt_def, BitVec.toNat_add_of_lt (hfit hout), toNat_bufLen] at hfull
      omega
    have hcopy : ∃ ring, Cochannel.copyIn { port with status := .coportBusy } buf len =
        some (ring, len) ∧ ring.length = coportBufLen :=
      copyIn_of_ring h.buf_length h.end_lt (by omega) hargs
    obtain ⟨ring, hcopy, hring⟩ := hcopy
    exact ⟨_, _, sendLocked_of_out hout hcopy, sent_ringState h hpos hlen hout hring⟩
  · refine ⟨port, .err .eagain, ?_, h⟩
    simp [Cochannel.sendLocked, hout, h.reopen]

theorem cochannelRecv_ringState (h : RingState port) (hargs : len.toNat ≤ buf.length)
    (hpos : 0 < len.toNat)
    (hfit : Meets port.event copollIn → len.toNat ≤ port.length.toNat) :
    ∃ port' reply, port.cochannelRecv buf len = some (port', reply) ∧ RingState port' ∧
      ∀ n out, reply = .received n out → n = len ∧ len.toNat ≤ port.length.toNat ∧
        port'.length.toNat = port.length.toNat - len.toNat := by
  have hle := h.ring.length_le
  rw [cochannelRecv_of_open h.status_eq hargs]
  by_cases hin : Meets port.event copollIn
  · have hlen := hfit hin
    have hcopy : ∃ out, Cochannel.copyOut { port with status := .coportBusy } buf len = some out :=
      copyOut_of_ring h.buf_length h.start_lt (by omega) hargs
    obtain ⟨out, hcopy⟩ := hcopy
    refine ⟨_, _, recvLocked_of_in hin hcopy, taken_ringState h hpos hlen hin, ?_⟩
    rintro n out' ⟨⟩
    exact ⟨rfl, hlen, BitVec.toNat_sub_of_le (BitVec.le_def.mpr hlen)⟩
  · refine ⟨port, .err .eagain, ?_, h, nofun⟩
    simp [Cochannel.recvLocked, hin, h.reopen]

/-- A call whose lengths fit returns and keeps the invariant. A receive shortens the contents
by what it returns. -/
theorem run_ringState (h : RingState port) {call : Call} (hfit : Fits port call) :
    ∃ port' reply, call.run port = some (port', reply) ∧ RingState port' ∧
      ∀ buf len n out, call = .corecv buf len → reply = .received n out →
        n = len ∧ len.toNat ≤ port.length.toNat ∧
          port'.length.toNat = port.length.toNat - len.toNat := by
  cases call with
  | cosend buf len =>
    cases hv : validateCoportOpArgs buf len with
    -- The arguments are refused before the port is touched.
    | some error => exact ⟨port, .err error, by simp [Call.run, cosendImplCochannel, hv], h, nofun⟩
    | none =>
      obtain ⟨hargs, hpos⟩ := validate_eq_none.mp hv
      obtain ⟨port', reply, hsend, h'⟩ := cochannelSend_ringState h hargs hpos (hfit hv)
      exact ⟨port', reply, by simp [Call.run, cosendImplCochannel, hv, hsend], h', nofun⟩
  | corecv buf len =>
    cases hv : validateCoportOpArgs buf len with
    | some error =>
      exact ⟨port, .err error, by simp [Call.run, corecvImplCochannel, hv], h, nofun⟩
    | none =>
      obtain ⟨hargs, hpos⟩ := validate_eq_none.mp hv
      obtain ⟨port', reply, hrecv, h', htaken⟩ := cochannelRecv_ringState h hargs hpos (hfit hv)
      refine ⟨port', reply, by simp [Call.run, corecvImplCochannel, hv, hrecv], h', ?_⟩
      rintro buf' len' n out ⟨⟩ hreply
      exact htaken n out hreply

end Calls

/-! ### Runs -/

section Runs
variable {contents : Vector UInt8 coportBufLen} {s : Cochannel}

theorem ringState_init (contents : Vector UInt8 coportBufLen) :
    RingState (initCochannel contents) := by
  refine ⟨⟨Nat.zero_le _, rfl, ?_, ?_⟩, Nat.zero_lt_succ _, rfl, Vector.length_toList⟩
  · simp only [initCochannel]
    decide
  · simp only [initCochannel]
    decide

theorem ringState_reach (h : Reach cochannelStep Fits (initCochannel contents) s) :
    RingState s := by
  refine h.invariant (ringState_init contents) fun s call s' _ hs hfit hstep => ?_
  obtain ⟨port', reply, hrun, hport', -⟩ := run_ringState hs hfit
  simp only [cochannelStep, hrun, Option.map_some, Option.some.injEq] at hstep
  exact hstep ▸ hport'

/-- The ring invariant holds in every run whose lengths fit. Every call that fits returns, and
a receive returns at most what is there and takes just that off the length. -/
theorem cochannel_ring_invariant (h : Reach cochannelStep Fits (initCochannel contents) s) :
    RingOk s ∧
    (∀ call, Fits s call → (call.run s).isSome = true) ∧
    ∀ buf len s' n out, Fits s (.corecv buf len) →
      (Call.corecv buf len).run s = some (s', .received n out) →
      n = len ∧ len.toNat ≤ s.length.toNat ∧ s'.length.toNat = s.length.toNat - len.toNat := by
  have hs := ringState_reach h
  refine ⟨hs.ring, fun call hfit => ?_, fun buf len s' n out hfit hrecv => ?_⟩
  · obtain ⟨port', reply, hrun, -⟩ := run_ringState hs hfit
    simp [hrun]
  · obtain ⟨port', reply, hrun, -, htaken⟩ := run_ringState hs hfit
    rw [hrun] at hrecv
    cases hrecv
    exact htaken buf len n out rfl rfl

end Runs

/-- A cochannel over a buffer of zeros. -/
def zeroedCochannel : Cochannel := initCochannel (Vector.replicate coportBufLen 0)

/-- A cochannel with one byte in it. -/
def oneByteCochannel (ring : List UInt8) : Cochannel where
  length := 1
  start := 0
  end_ := 1
  status := .coportOpen
  event := sentEvent copollInitEvents 1
  buf := ring

/-- A send of one byte on the fresh cochannel. -/
theorem run_send_one : ∃ ring, ring.length = coportBufLen ∧
    (Call.cosend [7] 1).run zeroedCochannel = some (oneByteCochannel ring, .sent 1) := by
  have h := ringState_init (Vector.replicate coportBufLen 0)
  obtain ⟨ring, hcopy, hring⟩ : ∃ ring,
      Cochannel.copyIn { zeroedCochannel with status := .coportBusy } [7] 1 = some (ring, 1) ∧
        ring.length = coportBufLen :=
    copyIn_of_ring h.buf_length h.end_lt (by decide) (by decide)
  have hout : Meets copollInitEvents copollOut := by decide
  have hlocked := (cochannelSend_of_open h.status_eq (by decide)).trans
    (sendLocked_of_out hout hcopy)
  exact ⟨ring, hring, hlocked⟩

/-- The ring after that send. -/
theorem cochannel_ring_invariant_one :
    ∃ s, Reach cochannelStep Fits zeroedCochannel s ∧ s.length.toNat = 1 ∧ RingOk s ∧
      ((Call.corecv [0] 1).run s).isSome = true := by
  obtain ⟨ring, -, hrun⟩ := run_send_one
  have hreach : Reach cochannelStep Fits zeroedCochannel (oneByteCochannel ring) :=
    .next (.cosend [7] 1) .init (fun _ _ => by decide) (congrArg (Option.map Prod.fst) hrun)
  obtain ⟨hring, hreturns, -⟩ := cochannel_ring_invariant hreach
  have hfits : Fits (oneByteCochannel ring) (.corecv [0] 1) := fun _ _ => Nat.le_refl 1
  exact ⟨_, hreach, rfl, hring, hreturns (.corecv [0] 1) hfits⟩

/-- One byte is there, a receive asks for two and gets two, and the length wraps. -/
theorem recv_wraps_length :
    ∃ s s' out, Reach cochannelStep anyAct zeroedCochannel s ∧ s.length.toNat = 1 ∧
      validateCoportOpArgs [0, 0] 2 = none ∧
      (Call.corecv [0, 0] 2).run s = some (s', .received 2 out) ∧
      s'.length.toNat = 2 ^ 64 - 1 ∧ Reach cochannelStep anyAct zeroedCochannel s' ∧
      ¬RingOk s' := by
  obtain ⟨ring, hring, hrun⟩ := run_send_one
  have hreach : Reach cochannelStep anyAct zeroedCochannel (oneByteCochannel ring) :=
    .next (.cosend [7] 1) .init trivial (congrArg (Option.map Prod.fst) hrun)
  obtain ⟨out, hcopy⟩ : ∃ out, Cochannel.copyOut
      { oneByteCochannel ring with status := .coportBusy } [0, 0] 2 = some out :=
    copyOut_of_ring hring (Nat.zero_lt_succ _) (by decide) (by decide)
  have hin : Meets (sentEvent copollInitEvents 1) copollIn := by decide
  have hrecv : (Call.corecv [0, 0] 2).run (oneByteCochannel ring) = some (_, .received 2 out) :=
    (cochannelRecv_of_open rfl (by decide)).trans (recvLocked_of_in hin hcopy)
  refine ⟨_, _, out, hreach, rfl, rfl, hrecv, rfl, ?_, fun hok => ?_⟩
  · exact .next (.corecv [0, 0] 2) hreach trivial (congrArg (Option.map Prod.fst) hrecv)
  · have hle : (1 - 2 : SizeT).toNat ≤ coportBufLen := hok.length_le
    exact absurd hle (by decide)

end Comsg.Proofs.Libcomsg
