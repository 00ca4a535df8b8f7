import Comsg.Lib.Ring
import Comsg.Libcomsg.CochannelCalls
import Comsg.Proofs.Libcomsg.CochannelRing

/-!
# `Comsg.Proofs.Libcomsg.CochannelCalls`: the length of a cochannel under concurrent calls

The lock keeps the copies and the stores of two calls apart, but the stored length goes back
to a read before the lock. Two sends that both read the length 0 store the same length, and one
of the two messages is lost from it (`two_sends_lose_update`). The cocarrier functions of ipcd
read the length under the lock.

`cochannel_length_of_current` is about the runs in which a locked section finds the length that
its call read (`UpToDate`). There the length is what was accepted and not returned yet, and the
ring holds those bytes in order. The proof follows the ring as a list of bytes: the copy of a
send writes the cells behind the window (`copyIn_cells`), the copy of a receive reads the cells
at its front (`copyOut_cells`).
-/

set_option autoImplicit false

namespace Comsg.Proofs.Libcomsg

open Comsg.Lib
open Comsg.Libcomsg
open Comsg.Libcomsg.Cochannel (sentEvent takenEvent)

/-- The bytes that were accepted and not returned yet. -/
def buffered (s : Channel) : Nat := s.accepted.length - s.returned.length

/-- The locked section of the call passes its event test. -/
def Proceeds (port : Cochannel) : Call → Prop
  | .cosend _ _ => Meets port.event copollOut
  | .corecv _ _ => Meets port.event copollIn

/-- A receive that goes ahead asks for at most what is buffered when its locked section
runs. -/
def AsksBuffered (s : Channel) : ChannelAct → Prop
  | .start _ _ => True
  | .locked t  => ∀ buf len portSize, s.calls t = some ⟨.corecv buf len, portSize⟩ →
      Meets s.port.event copollIn → len.toNat ≤ buffered s

/-- The locked section of a call that goes ahead finds the length the call has read. -/
def LengthCurrent (s : Channel) : ChannelAct → Prop
  | .start _ _ => True
  | .locked t  => ∀ p, s.calls t = some p → Proceeds s.port p.call → p.portSize = s.port.length

/-- The new length of a send that goes ahead did not wrap. -/
def SumFits (s : Channel) : ChannelAct → Prop
  | .start _ _ => True
  | .locked t  => ∀ buf len portSize, s.calls t = some ⟨.cosend buf len, portSize⟩ →
      Meets s.port.event copollOut → len.toNat + portSize.toNat < 2 ^ 64

def UpToDate (s : Channel) (act : ChannelAct) : Prop :=
  AsksBuffered s act ∧ LengthCurrent s act ∧ SumFits s act

/-! ### The bytes of a copy -/

section Copies
variable {port : Cochannel} {buf ring out : List UInt8} {len copied : SizeT}

/-- A send writes the `len` cells from `end` on, and no other cell. -/
theorem copyIn_cells (h : port.copyIn buf len = some (ring, copied))
    (hend : port.end_.toNat < coportBufLen) (hlen : len.toNat ≤ coportBufLen) :
    (∀ j < len.toNat, ring[(port.end_.toNat + j) % coportBufLen]? = buf[j]?) ∧
    ∀ i < coportBufLen, (∀ j < len.toNat, i ≠ (port.end_.toNat + j) % coportBufLen) →
      ring[i]? = port.buf[i]? := by
  have htoEnd := toNat_toEnd hend
  unfold Cochannel.copyIn at h
  rcases wrap_cases hend hlen with ⟨hwrap, hover, hrest⟩ | ⟨hwrap, hfit⟩
  · simp only [if_pos hwrap, Option.bind_eq_bind, Option.bind_eq_some_iff] at h
    obtain ⟨first, hfirst, both, hboth, heq⟩ := h
    cases heq
    have hcell (i : Nat) := getElem?_of_memcpy hboth i
    simp only [getElem?_of_memcpy hfirst, htoEnd, hrest] at hcell
    constructor
    · intro j hj
      by_cases hlow : port.end_.toNat + j < coportBufLen
      -- The first part of the message is behind `end`, the rest at the start of the ring.
      · rw [Nat.mod_eq_of_lt hlow, hcell, if_neg (by omega), if_pos (by omega)]
        exact congrArg (buf[·]?) (by omega)
      · rw [Nat.mod_eq_sub_mod (by omega), Nat.mod_eq_of_lt (by omega), hcell, if_pos (by omega)]
        exact congrArg (buf[·]?) (by omega)
    · intro i hi hne
      by_cases hlow : i < port.end_.toNat
      · have hother : ¬i < port.end_.toNat + len.toNat - coportBufLen := by
          intro hin
          refine hne (i + coportBufLen - port.end_.toNat) (by omega) ?_
          rw [show port.end_.toNat + (i + coportBufLen - port.end_.toNat) = i + coportBufLen
            by omega, Nat.add_mod_right, Nat.mod_eq_of_lt hi]
        rw [hcell, if_neg (by omega), if_neg (by omega)]
      · refine absurd ?_ (hne (i - port.end_.toNat) (by omega))
        rw [show port.end_.toNat + (i - port.end_.toNat) = i by omega, Nat.mod_eq_of_lt hi]
  · simp only [if_neg hwrap, Option.bind_eq_bind, Option.bind_eq_some_iff] at h
    obtain ⟨one, hone, heq⟩ := h
    cases heq
    constructor
    · intro j hj
      rw [Nat.mod_eq_of_lt (by omega), getElem?_of_memcpy hone, if_pos (by omega)]
      exact congrArg (buf[·]?) (by omega)
    · intro i hi hne
      rw [getElem?_of_memcpy hone, if_neg]
      intro hin
      refine hne (i - port.end_.toNat) (by omega) ?_
      rw [show port.end_.toNat + (i - port.end_.toNat) = i by omega, Nat.mod_eq_of_lt hi]

/-- A receive reads the `len` cells from `start` on into the front of the caller's buffer, and
leaves the rest of that as it is. -/
theorem copyOut_cells (h : port.copyOut buf len = some out)
    (hring : port.buf.length = coportBufLen) (hstart : port.start.toNat < coportBufLen)
    (hlen : len.toNat ≤ coportBufLen) (j : Nat) :
    out[j]? = if j < len.toNat then port.buf[(port.start.toNat + j) % coportBufLen]?
      else buf[j]? := by
  have htoEnd := toNat_toEnd hstart
  have hcap : BitVec.ofNat 64 port.buf.length = bufLen := by rw [hring]; rfl
  unfold Cochannel.copyOut at h
  rw [hcap] at h
  rcases wrap_cases hstart hlen with ⟨hwrap, hover, hrest⟩ | ⟨hwrap, hfit⟩
  · simp only [if_pos hwrap, Option.bind_eq_bind, Option.bind_eq_some_iff] at h
    obtain ⟨first, hfirst, hboth⟩ := h
    rw [getElem?_of_memcpy hboth, getElem?_of_memcpy hfirst, htoEnd, hrest]
    by_cases hj : j < len.toNat
    · rw [if_pos hj]
      by_cases hlow : port.start.toNat + j < coportBufLen
      · rw [Nat.mod_eq_of_lt hlow, if_neg (by omega), if_pos (by omega)]
        exact congrArg (port.buf[·]?) (by omega)
      · rw [Nat.mod_eq_sub_mod (by omega), Nat.mod_eq_of_lt (by omega), if_pos (by omega)]
        exact congrArg (port.buf[·]?) (by omega)
    · rw [if_neg hj, if_neg (by omega), if_neg (by omega)]
  · simp only [if_neg hwrap] at h
    rw [getElem?_of_memcpy h]
    by_cases hj : j < len.toNat
    · rw [if_pos hj, Nat.mod_eq_of_lt (by omega), if_pos (by omega)]
      exact congrArg (port.buf[·]?) (by omega)
    · rw [if_neg hj, if_neg (by omega)]

end Copies

/-! ### The second part of a call -/

/-- The ring of the port holds the bytes `unread`, oldest first. -/
def Holds (port : Cochannel) (unread : List UInt8) : Prop :=
  RingHolds coportBufLen port.start.toNat port.length.toNat port.end_.toNat (port.buf[·]?)
    (unread.map some)

section Locked
variable {port : Cochannel} {buf unread : List UInt8} {len : SizeT}

theorem Holds.length_eq (h : Holds port unread) : unread.length = port.length.toNat := by
  have hlen := RingHolds.length_eq h
  rwa [List.length_map] at hlen

theorem locked_send_of_open (hst : port.status = .coportOpen) (portSize : SizeT) :
    (Call.cosend buf len).locked port portSize =
      Cochannel.sendLocked { port with status := .coportBusy } buf len (len + portSize) := by
  simp [Call.locked, hst, acquireCoportStatus, Call.newLen]

theorem locked_recv_of_open (hst : port.status = .coportOpen) (portSize : SizeT) :
    (Call.corecv buf len).locked port portSize =
      Cochannel.recvLocked { port with status := .coportBusy } buf len (portSize - len) := by
  simp [Call.locked, hst, acquireCoportStatus, Call.newLen]

/-- A send that read the current length, and fits, appends its message to the contents. -/
theorem locked_send (h : RingState port) (hholds : Holds port unread)
    (hargs : len.toNat ≤ buf.length) (hpos : 0 < len.toNat)
    (hlen : len.toNat + port.length.toNat ≤ coportBufLen) (hout : Meets port.event copollOut) :
    ∃ port', (Call.cosend buf len).locked port port.length = some (port', .sent len) ∧
      RingState port' ∧ Holds port' (unread ++ buf.take len.toNat) := by
  have hcopy : ∃ ring, Cochannel.copyIn { port with status := .coportBusy } buf len =
      some (ring, len) ∧ ring.length = coportBufLen :=
    copyIn_of_ring h.buf_length h.end_lt (by omega) hargs
  obtain ⟨ring, hcopy, hring⟩ := hcopy
  have hlocked := (locked_send_of_open h.status_eq port.length).trans
    (sendLocked_of_out hout hcopy)
  refine ⟨_, hlocked, sent_ringState h hpos hlen hout hring, ?_⟩
  have hcells := copyIn_cells hcopy h.end_lt (by omega)
  -- The written cells are the ones behind the window, so the window grows by the message.
  have hmsg : ((buf.take len.toNat).map some).length = len.toNat := by
    rw [List.length_map, List.length_take]
    omega
  have happend := RingHolds.append hholds ((buf.take len.toNat).map some) (ring[·]?) (by omega)
    (fun j hj => by
      rw [hmsg] at hj
      rw [hcells.1 j hj]
      simp [List.getElem?_eq_getElem (Nat.lt_of_lt_of_le hj hargs)])
    (fun i hi hne => hcells.2 i hi (by rwa [hmsg] at hne))
  have hnew : (len + port.length).toNat = port.length.toNat + len.toNat := by
    rw [BitVec.toNat_add_of_lt (by simp only [coportBufLen] at hlen; omega)]
    omega
  show RingHolds _ _ (len + port.length).toNat ((port.end_ + len) % bufLen).toNat _ _
  rw [hnew, toNat_advance h.end_lt (by omega), List.map_append]
  rwa [hmsg] at happend

/-- A receive that read the current length, and asks for at most that, takes the oldest
bytes. -/
theorem locked_recv (h : RingState port) (hholds : Holds port unread)
    (hargs : len.toNat ≤ buf.length) (hpos : 0 < len.toNat)
    (hlen : len.toNat ≤ port.length.toNat) (hin : Meets port.event copollIn) :
    ∃ port', (Call.corecv buf len).locked port port.length =
        some (port', .received len (unread.take len.toNat ++ buf.drop len.toNat)) ∧
      RingState port' ∧ Holds port' (unread.drop len.toNat) := by
  have hle := h.ring.length_le
  have hcopy : ∃ out, Cochannel.copyOut { port with status := .coportBusy } buf len = some out :=
    copyOut_of_ring h.buf_length h.start_lt (by omega) hargs
  obtain ⟨out, hcopy⟩ := hcopy
  have hlocked := (locked_recv_of_open h.status_eq port.length).trans (recvLocked_of_in hin hcopy)
  have hcells := copyOut_cells hcopy h.buf_length h.start_lt (by omega)
  obtain ⟨hfront, hrest⟩ := RingHolds.drop hholds hlen
  have htaken : (unread.take len.toNat).length = len.toNat := by
    rw [List.length_take, hholds.length_eq]
    omega
  have hout : out = unread.take len.toNat ++ buf.drop len.toNat := by
    refine List.ext_getElem? fun j => ?_
    rw [hcells j]
    by_cases hj : j < len.toNat
    · have hcell : (ringList coportBufLen port.start.toNat len.toNat (port.buf[·]?))[j]? =
          some port.buf[(port.start.toNat + j) % coportBufLen]? := getElem?_ringList hj
      rw [hfront, ← List.map_take, List.getElem?_map] at hcell
      rw [if_pos hj, List.getElem?_append_left (by omega)]
      cases hu : (unread.take len.toNat)[j]? with
      | none => simp [hu] at hcell
      | some b =>
        rw [hu, Option.map_some, Option.some.injEq] at hcell
        exact hcell.symm
    · rw [if_neg hj, List.getElem?_append_right (by omega), List.getElem?_drop, htaken]
      exact congrArg (buf[·]?) (by omega)
  refine ⟨_, hout ▸ hlocked, taken_ringState h hpos hlen hin, ?_⟩
  have hnew : (port.length - len).toNat = port.length.toNat - len.toNat :=
    BitVec.toNat_sub_of_le (BitVec.le_def.mpr hlen)
  show RingHolds _ ((port.start + len) % bufLen).toNat (port.length - len).toNat _ _ _
  rw [hnew, toNat_advance h.start_lt (by omega), List.map_drop]
  exact hrest

/-- A call whose event test fails leaves the port as it was. -/
theorem locked_again (h : RingState port) {call : Call} (hnot : ¬Proceeds port call)
    (portSize : SizeT) : call.locked port portSize = some (port, .err .eagain) := by
  cases call with
  | cosend buf len =>
    have hout : ¬Meets port.event copollOut := hnot
    rw [locked_send_of_open h.status_eq]
    simp [Cochannel.sendLocked, hout, h.reopen]
  | corecv buf len =>
    have hin : ¬Meets port.event copollIn := hnot
    rw [locked_recv_of_open h.status_eq]
    simp [Cochannel.recvLocked, hin, h.reopen]

end Locked

/-! ### Runs -/

/-- What holds between the locked sections: the unread bytes are in the ring, and every call
in progress has passed its tests. -/
structure ChannelOk (s : Channel) : Prop where
  ring : RingState s.port
  contents : ∃ unread, s.accepted = s.returned ++ unread ∧ Holds s.port unread
  calls : ∀ t p, s.calls t = some p → p.call.refused p.portSize = none

section Runs
variable {contents : Vector UInt8 coportBufLen} {s s' : Channel} {t : Nat}

theorem channelOk_init (contents : Vector UInt8 coportBufLen) :
    ChannelOk (initChannel contents) where
  ring := ringState_init contents
  contents := ⟨[], rfl, RingHolds.empty (by decide) _⟩
  calls := by simp [initChannel]

theorem refused_send_eq_none {buf : List UInt8} {len n : SizeT} :
    (Call.cosend buf len).refused n = none ↔
      len.toNat ≤ buf.length ∧ 0 < len.toNat ∧ ¬bufLen < len + n := by
  rw [← and_assoc, ← validate_eq_none]
  cases hv : validateCoportOpArgs buf len <;> simp [Call.refused, hv]

theorem refused_recv_eq_none {buf : List UInt8} {len n : SizeT} :
    (Call.corecv buf len).refused n = none ↔ len.toNat ≤ buf.length ∧ 0 < len.toNat := by
  rw [← validate_eq_none]
  cases hv : validateCoportOpArgs buf len with
  | some error => simp [Call.refused, hv]
  | none => simp [Call.refused, hv, (validate_eq_none.mp hv).1]

/-- The first part of a call keeps the invariant. -/
theorem channelOk_start {call : Call} (h : ChannelOk s)
    (hs : s.step (.start t call) = some s') : ChannelOk s' := by
  simp only [Channel.step] at hs
  split at hs
  · cases hs
  · split at hs
    · cases hs
      exact h
    · rename_i hrefused
      cases hs
      refine ⟨h.ring, h.contents, fun u p hp => ?_⟩
      by_cases hu : u = t
      · subst hu
        simp only [Function.update_self, Option.some.injEq] at hp
        exact hp ▸ hrefused
      · exact h.calls u p (by simpa [Function.update_of_ne hu] using hp)

theorem calls_finish (h : ChannelOk s) {call : Call} {port : Cochannel} {reply : Reply} :
    ∀ u p, (s.finish t call port reply).calls u = some p → p.call.refused p.portSize = none := by
  intro u p hp
  by_cases hu : u = t
  · subst hu
    simp [Channel.finish] at hp
  · exact h.calls u p (by simpa [Channel.finish, Function.update_of_ne hu] using hp)

/-- The second part of a call that may run returns and keeps the invariant. -/
theorem channelOk_locked (h : ChannelOk s) {p : Pending} (hp : s.calls t = some p)
    (hok : UpToDate s (.locked t)) :
    ∃ s', s.step (.locked t) = some s' ∧ ChannelOk s' := by
  obtain ⟨hasks, hcurrent, hsum⟩ := hok
  obtain ⟨unread, hsplit, hholds⟩ := h.contents
  have hstep {port reply} (hl : p.call.locked s.port p.portSize = some (port, reply)) :
      s.step (.locked t) = some (s.finish t p.call port reply) := by
    simp [Channel.step, hp, hl]
  have hrefused := h.calls t p hp
  have hunread : buffered s = s.port.length.toNat := by
    rw [← hholds.length_eq, buffered, hsplit, List.length_append]
    omega
  by_cases hproceeds : Proceeds s.port p.call
  · have hsize := hcurrent p hp hproceeds
    obtain ⟨call, portSize⟩ := p
    subst hsize
    cases call with
    | cosend buf len =>
      obtain ⟨hargs, hpos, hfit⟩ := refused_send_eq_none.mp hrefused
      have hlt := hsum buf len _ hp hproceeds
      have hlen : len.toNat + s.port.length.toNat ≤ coportBufLen := by
        rw [BitVec.lt_def, BitVec.toNat_add_of_lt hlt, toNat_bufLen] at hfit
        omega
      obtain ⟨port', hl, hring, hholds'⟩ := locked_send h.ring hholds hargs hpos hlen hproceeds
      refine ⟨_, hstep hl, hring, ⟨_, ?_, hholds'⟩, calls_finish h⟩
      simp [Channel.finish, Channel.sentBytes, Channel.takenBytes, hsplit]
    | corecv buf len =>
      obtain ⟨hargs, hpos⟩ := refused_recv_eq_none.mp hrefused
      have hlen : len.toNat ≤ s.port.length.toNat := hunread ▸ hasks buf len _ hp hproceeds
      obtain ⟨port', hl, hring, hholds'⟩ := locked_recv h.ring hholds hargs hpos hlen hproceeds
      refine ⟨_, hstep hl, hring, ⟨_, ?_, hholds'⟩, calls_finish h⟩
      have hmin : min len.toNat unread.length = len.toNat := by
        rw [hholds.length_eq]
        omega
      simp [Channel.finish, Channel.sentBytes, Channel.takenBytes, hsplit, hmin]
  · refine ⟨_, hstep (locked_again h.ring hproceeds _), h.ring, ⟨unread, ?_, hholds⟩,
      calls_finish h⟩
    simp [Channel.finish, Channel.sentBytes, Channel.takenBytes, hsplit]

theorem channelOk_reach (h : Reach Channel.step UpToDate (initChannel contents) s) :
    ChannelOk s := by
  refine h.invariant (channelOk_init contents) fun s act s' _ hs hok hstep => ?_
  cases act with
  | start t call => exact channelOk_start hs hstep
  | locked t =>
    cases hp : s.calls t with
    | none => simp [Channel.step, hp] at hstep
    | some p =>
      obtain ⟨s'', hstep', hs''⟩ := channelOk_locked hs hp hok
      rw [hstep, Option.some.injEq] at hstep'
      exact hstep' ▸ hs''

/-- The length of the cochannel is what was accepted and not returned yet. It is at most the
size of the ring, and the ring holds just those bytes, in order. -/
structure LengthOk (s : Channel) : Prop where
  returned_le : s.returned.length ≤ s.accepted.length
  length_eq : s.port.length.toNat = s.accepted.length - s.returned.length
  length_le : s.port.length.toNat ≤ coportBufLen
  unread : ringList coportBufLen s.port.start.toNat s.port.length.toNat (s.port.buf[·]?) =
    (s.accepted.drop s.returned.length).map some

theorem ChannelOk.lengthOk (h : ChannelOk s) : LengthOk s := by
  obtain ⟨unread, hsplit, hholds⟩ := h.contents
  have hlen := hholds.length_eq
  refine ⟨?_, ?_, h.ring.ring.length_le, ?_⟩
  · rw [hsplit, List.length_append]
    omega
  · rw [hsplit, List.length_append]
    omega
  · rw [hsplit, List.drop_left]
    exact RingHolds.contents hholds

/-- No update of the length is lost in a run in which every locked section that goes ahead
finds the length its call has read. -/
theorem cochannel_length_of_current
    (h : Reach Channel.step UpToDate (initChannel contents) s) :
    s.port.status = .coportOpen ∧ LengthOk s ∧ s.returned <+: s.accepted ∧
    ∀ t p, s.calls t = some p → UpToDate s (.locked t) → (s.step (.locked t)).isSome = true := by
  have hs := channelOk_reach h
  refine ⟨hs.ring.status_eq, hs.lengthOk, ?_, fun t p hp hok => ?_⟩
  · obtain ⟨unread, hsplit, -⟩ := hs.contents
    exact ⟨unread, hsplit.symm⟩
  · obtain ⟨s', hstep, -⟩ := channelOk_locked hs hp hok
    simp [hstep]

end Runs

/-! ### Two sends -/

/-- A send whose message fits in the ring stores the length it computed, whatever it read. -/
theorem locked_send_stale {port : Cochannel} {buf : List UInt8} {len : SizeT}
    (h : RingState port) (hargs : len.toNat ≤ buf.length) (hlen : len.toNat ≤ coportBufLen)
    (hout : Meets port.event copollOut) (portSize : SizeT) :
    ∃ port', (Call.cosend buf len).locked port portSize = some (port', .sent len) ∧
      port'.length = len + portSize ∧ port'.status = .coportOpen := by
  have hcopy : ∃ ring, Cochannel.copyIn { port with status := .coportBusy } buf len =
      some (ring, len) ∧ ring.length = coportBufLen :=
    copyIn_of_ring h.buf_length h.end_lt hlen hargs
  obtain ⟨ring, hcopy, -⟩ := hcopy
  exact ⟨_, (locked_send_of_open h.status_eq portSize).trans (sendLocked_of_out hout hcopy), rfl,
    rfl⟩

/-- A fresh cochannel over zeros, without calls. -/
def zeroedChannel : Channel := initChannel (Vector.replicate coportBufLen 0)

/-- Thread 0 is about to send one byte on the fresh cochannel, and thread 1 another. Both have
read the length 0. -/
def twoSenders : Channel :=
  { zeroedChannel with
    calls := Function.update (Function.update (fun _ => none) 0 (some ⟨.cosend [7] 1, 0⟩)) 1
      (some ⟨.cosend [8] 1, 0⟩) }

theorem reach_twoSenders {ok : Channel → ChannelAct → Prop}
    (hok : ∀ s t call, ok s (.start t call)) : Reach Channel.step ok zeroedChannel twoSenders := by
  refine .next (.start 1 (.cosend [8] 1)) (.next (.start 0 (.cosend [7] 1)) .init ?_ rfl) ?_ rfl
  · exact hok _ _ _
  · exact hok _ _ _

/-- The first of the two sends completes. -/
theorem twoSenders_first : ∃ port, RingState port ∧ port.length.toNat = 1 ∧
    twoSenders.step (.locked 0) = some (twoSenders.finish 0 (.cosend [7] 1) port (.sent 1)) := by
  have h := ringState_init (Vector.replicate coportBufLen 0)
  have hempty : Holds twoSenders.port [] := RingHolds.empty (by decide) _
  have hargs : (1 : SizeT).toNat ≤ [(7 : UInt8)].length := by decide
  obtain ⟨port, hl, hring, hholds⟩ := locked_send h hempty hargs (by decide) (by decide) (by decide)
  refine ⟨port, hring, hholds.length_eq.symm, ?_⟩
  simp only [Channel.step, twoSenders, Function.update_of_ne (show 0 ≠ 1 by decide),
    Function.update_self]
  exact congrArg _ hl

/-- Every call in progress sends one byte and has read the length 0. -/
def OneByteSends (s : Channel) : Prop :=
  ∀ t p, s.calls t = some p → ∃ b, p = ⟨.cosend [b] 1, 0⟩

theorem oneByteSends_twoSenders : OneByteSends twoSenders := by
  intro t p hp
  simp only [twoSenders, Function.update_apply] at hp
  split at hp
  · exact ⟨8, (Option.some.inj hp).symm⟩
  · split at hp
    · exact ⟨7, (Option.some.inj hp).symm⟩
    · cases hp

theorem OneByteSends.finish {s : Channel} (h : OneByteSends s) (t : Nat) (call : Call)
    (port : Cochannel) (reply : Reply) : OneByteSends (s.finish t call port reply) := by
  intro u p hp
  simp only [Channel.finish, Function.update_apply] at hp
  split at hp
  · cases hp
  · exact h u p hp

/-- Such calls ask for nothing, and their sums do not wrap. -/
theorem OneByteSends.fits {s : Channel} (h : OneByteSends s) (act : ChannelAct) :
    AsksBuffered s act ∧ SumFits s act := by
  cases act with
  | start t call => exact ⟨trivial, trivial⟩
  | locked t =>
    constructor
    · intro buf len portSize hp
      obtain ⟨b, hb⟩ := h t _ hp
      cases hb
    · intro buf len portSize hp _
      obtain ⟨b, hb⟩ := h t _ hp
      cases hb
      decide

theorem upToDate_first : UpToDate twoSenders (.locked 0) := by
  obtain ⟨hasks, hsum⟩ := oneByteSends_twoSenders.fits (.locked 0)
  refine ⟨hasks, fun p hp _ => ?_, hsum⟩
  obtain ⟨b, rfl⟩ := oneByteSends_twoSenders 0 p hp
  rfl

/-- The length after the first of the two sends. -/
theorem cochannel_length_of_current_first :
    ∃ s, Reach Channel.step UpToDate zeroedChannel s ∧ s.accepted = [7] ∧ LengthOk s := by
  obtain ⟨port, -, -, hstep⟩ := twoSenders_first
  have hstart : Reach Channel.step UpToDate zeroedChannel twoSenders :=
    reach_twoSenders fun _ _ _ => ⟨trivial, trivial, trivial⟩
  have hreach : Reach Channel.step UpToDate zeroedChannel
      (twoSenders.finish 0 (.cosend [7] 1) port (.sent 1)) :=
    .next (.locked 0) hstart upToDate_first hstep
  obtain ⟨-, hlength, -⟩ := cochannel_length_of_current hreach
  exact ⟨_, hreach, by simp [Channel.finish, Channel.sentBytes, twoSenders, zeroedChannel,
    initChannel], hlength⟩

/-- The second send stores the length it computed before the first one ran. Two bytes are
accepted and the length is 1, although no receive asked for anything and no sum wrapped. -/
theorem two_sends_lose_update :
    ∃ s, Reach Channel.step (fun s act => AsksBuffered s act ∧ SumFits s act) zeroedChannel s ∧
      s.port.status = .coportOpen ∧ s.accepted.length = 2 ∧ s.returned = [] ∧
      s.port.length.toNat = 1 ∧ ¬LengthOk s := by
  obtain ⟨port, hring, hlen, hfirst⟩ := twoSenders_first
  have hout : Meets port.event copollOut := by
    rw [hring.ring.out_iff, hlen]
    decide
  have hargs : (1 : SizeT).toNat ≤ [(8 : UInt8)].length := by decide
  obtain ⟨port', hl, hlen', hst⟩ := locked_send_stale hring hargs (by decide) hout 0
  have hone : port'.length.toNat = 1 := by
    rw [hlen']
    decide
  have hsecond : (twoSenders.finish 0 (.cosend [7] 1) port (.sent 1)).step (.locked 1) = some
      ((twoSenders.finish 0 (.cosend [7] 1) port (.sent 1)).finish 1 (.cosend [8] 1) port'
        (.sent 1)) := by
    have hcall : (twoSenders.finish 0 (.cosend [7] 1) port (.sent 1)).calls 1 =
        some ⟨.cosend [8] 1, 0⟩ := by
      simp [Channel.finish, twoSenders]
    simp only [Channel.step, hcall]
    exact congrArg _ hl
  refine ⟨_, .next (.locked 1) (.next (.locked 0) (reach_twoSenders fun _ _ _ => ?_) ?_ hfirst) ?_
    hsecond, hst, rfl, rfl, hone, fun hok => ?_⟩
  · exact ⟨trivial, trivial⟩
  · exact oneByteSends_twoSenders.fits _
  · exact (oneByteSends_twoSenders.finish 0 _ _ _).fits _
  · have hlength : port'.length.toNat = 2 - 0 := hok.length_eq
    omega

end Comsg.Proofs.Libcomsg
