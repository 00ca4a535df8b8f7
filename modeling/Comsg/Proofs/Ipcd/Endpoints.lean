import Comsg.Ipcd.Endpoints
import Comsg.Proofs.Ipcd.Coport
import Comsg.Proofs.Ipcd.Validate

/-!
# `Comsg.Proofs.Ipcd.Endpoints`: what the handlers of ipcd take a coport for

A coport keeps its type, and the indices of a cocarrier stay within its array (`PortOk`). So a
handler on a cocarrier uses what is there. The handlers of `COSEND`, `CORECV` and the polls see
cocarriers only, since their validators call `valid_cocarrier`, and the handler of `COCLOSE` keeps
to `info`. `validate_comsg_free_args` calls `valid_coport`, which accepts a coport of any type, and
`free_comsg` reads the buffer of it as message pointers (`handlers_keep_to_type_iff`).
-/

set_option autoImplicit false

namespace Comsg.Proofs.Ipcd

open Comsg.Lib
open Comsg.Ipcd
open Comsg.Ipcd.PortTables

/-- The indices of a cocarrier are within its array. -/
def InRange (port : Coport) : Prop := port.start < cocarrierSize ∧ port.end_ < cocarrierSize

/-- The coport has the type that it was opened with. -/
structure PortOk (type : CoportType) (port : AnyPort) : Prop where
  type : port.type = type
  inRange : ∀ p, port = .cocarrier p → InRange p

section Calls
variable {port : Coport} {o : Outcome}

theorem inRange_copollNotify {event : CoportEventmask} (h : InRange port) :
    InRange (copollNotify port event).1 := by
  unfold copollNotify
  split
  · exact h
  · split <;> exact h

theorem inRange_send {msg : Message} {msgLen : Nat} (h : InRange port)
    (ho : cocarrierSend port msg msgLen = some o) : InRange o.port := by
  unfold cocarrierSend at ho
  split at ho
  · simp only at ho
    split at ho
    · cases ho
      exact h
    · cases ho
      exact inRange_copollNotify ⟨h.1, Nat.mod_lt _ cocarrierSize_pos⟩
  · cases ho
    exact h
  · cases ho
    exact h
  · cases ho

theorem inRange_recv (h : InRange port) (ho : cocarrierRecv port = some o) : InRange o.port := by
  unfold cocarrierRecv at ho
  split at ho
  · cases ho
    exact h
  · obtain ⟨⟨status, closing⟩, -, ho⟩ := Option.map_eq_some_iff.mp ho
    simp only at ho
    split at ho
    · cases ho
      exact h
    · cases ho
      exact inRange_copollNotify ⟨Nat.mod_lt _ cocarrierSize_pos, h.2⟩

theorem inRange_close (h : InRange port) (ho : coportClose port = some o) : InRange o.port := by
  unfold coportClose at ho
  split at ho
  · cases ho
    exact h
  · cases ho
    exact h
  · cases ho
    exact h
  · cases ho

theorem inRange_free {buf : MsgBuf} (h : InRange port) : InRange (freeComsg port buf).port := by
  unfold freeComsg
  split <;> exact h

end Calls

section Steps
variable {type : CoportType} {port port' : AnyPort} {reply : PortReply}

theorem checkSlot_ok {index : Nat} (h : index < cocarrierSize) : checkSlot index = .ok () :=
  if_pos h

theorem sendPort_cocarrier {p : Coport} (h : InRange p) (msg : Message) (msgLen : Nat) :
    sendPort (.cocarrier p) msg msgLen = .ok ((cocarrierSend p msg msgLen).map ofOutcome) := by
  simp only [sendPort, checkSlot_ok h.2]
  split <;> rfl

theorem recvPort_cocarrier {p : Coport} (h : InRange p) :
    recvPort (.cocarrier p) = .ok ((cocarrierRecv p).map ofOutcome) := by
  simp only [recvPort, checkSlot_ok h.1]
  split <;> rfl

/-- The handlers use what a cocarrier has, and keep it in order. -/
theorem handler_cocarrier {p : Coport} (h : InRange p) (call : PortCall) :
    ∃ r, portHandler (.cocarrier p) call = .ok r ∧
      ∀ port' reply, r = some (port', reply) → ∃ p', port' = .cocarrier p' ∧ InRange p' := by
  have hmap {r : Option Outcome} (hr : ∀ o, r = some o → InRange o.port) (port' : AnyPort)
      (reply : PortReply) (heq : r.map ofOutcome = some (port', reply)) :
      ∃ p', port' = .cocarrier p' ∧ InRange p' := by
    obtain ⟨o, ho, heq⟩ := Option.map_eq_some_iff.mp heq
    cases heq
    exact ⟨o.port, rfl, hr o ho⟩
  cases call with
  | coclose => exact ⟨_, rfl, hmap fun o ho => inRange_close h ho⟩
  | cosend msg msgLen =>
    exact ⟨_, sendPort_cocarrier h msg msgLen, hmap fun o ho => inRange_send h ho⟩
  | corecv => exact ⟨_, recvPort_cocarrier h, hmap fun o ho => inRange_recv h ho⟩
  | copoll events =>
    refine ⟨_, rfl, fun port' reply heq => ?_⟩
    cases heq
    exact ⟨p, rfl, h⟩
  | slopoll entry wait =>
    simp only [portHandler, slopollPort]
    split
    · refine ⟨_, rfl, fun port' reply heq => ?_⟩
      split at heq
      · cases heq
        exact ⟨p.addListener entry, rfl, h⟩
      · cases heq
    · refine ⟨_, rfl, fun port' reply heq => ?_⟩
      cases heq
      exact ⟨p, rfl, h⟩
  | slopollWake entry =>
    refine ⟨_, rfl, fun port' reply heq => ?_⟩
    split at heq
    · cases heq
      exact ⟨p.removeListener entry, rfl, h⟩
    · cases heq
  | comsgFree buf =>
    refine ⟨_, rfl, fun port' reply heq => ?_⟩
    cases heq
    exact ⟨_, rfl, inRange_free h⟩

/-- The handlers leave the type of a copipe or a cochannel alone. -/
theorem handler_other {call : PortCall} (hne : port.type ≠ .cocarrier)
    (hs : portHandler port call = .ok (some (port', reply))) : port'.type = port.type := by
  cases port with
  | cocarrier p => exact absurd rfl hne
  | copipe info buf | cochannel info buf =>
    cases call with
    | coclose =>
      obtain ⟨⟨info', reply'⟩, -, heq⟩ := Option.map_eq_some_iff.mp (Except.ok.inj hs)
      cases heq
      rfl
    | cosend | corecv | copoll =>
      cases hs
      rfl
    | slopoll entry wait =>
      simp only [portHandler, slopollPort] at hs
      split at hs
      · cases hs
      · cases hs
        rfl
    | slopollWake | comsgFree => cases hs

theorem portOk_step {op : PortOp} (h : PortOk type port) (hs : portStep port op = some port') :
    PortOk type port' := by
  have hother (htype : port'.type = port.type) (hne : port.type ≠ .cocarrier) :
      PortOk type port' := by
    refine ⟨htype.trans h.type, fun p hp => ?_⟩
    rw [hp] at htype
    exact absurd htype.symm hne
  cases op with
  | request call =>
    simp only [portStep] at hs
    split at hs
    · rename_i port₁ reply hr
      cases hs
      cases port with
      | cocarrier p =>
        obtain ⟨r, hok, hrange⟩ := handler_cocarrier (h.inRange p rfl) call
        rw [hr] at hok
        obtain ⟨p', rfl, hp'⟩ := hrange port' reply (Except.ok.inj hok).symm
        refine ⟨h.type, fun q hq => ?_⟩
        cases hq
        exact hp'
      | copipe info buf | cochannel info buf =>
        exact hother (handler_other (by simp [AnyPort.type]) hr) (by simp [AnyPort.type])
    · cases hs
  | storeInfo info =>
    cases port with
    | cocarrier p => cases hs
    | copipe _ buf | cochannel _ buf =>
      cases hs
      exact hother rfl (by simp [AnyPort.type])
  | publish receiver =>
    cases port with
    | cocarrier | cochannel => cases hs
    | copipe info _ =>
      cases hs
      exact hother rfl (by simp [AnyPort.type])
  | writeRing ring =>
    cases port with
    | cocarrier | copipe => cases hs
    | cochannel info _ =>
      cases hs
      exact hother rfl (by simp [AnyPort.type])

theorem portOk_reach {ok : AnyPort → PortOp → Prop}
    (h : Reach portStep ok (AnyPort.init type) port) : PortOk type port := by
  induction h with
  | init =>
    refine ⟨by cases type <;> rfl, fun p hp => ?_⟩
    cases type with
    | cocarrier =>
      cases hp
      exact ⟨cocarrierSize_pos, cocarrierSize_pos⟩
    | copipe | cochannel => cases hp
  | next op _ _ hs ih => exact portOk_step ih hs

end Steps

/-! ### What the validators accept -/

section Accepts
variable {s : PortTables} {r : PortRequest s} {call : PortCall} {type : CoportType} {i : Nat}

/-- `valid_cocarrier` accepts a handle of a cocarrier only. -/
theorem type_of_validCocarrier {c : ClientCap s} (hc : c.cap = s.handle type i)
    (h : s.validCocarrier c.cap = some true) : type = .cocarrier := by
  cases carrierCase c with
  | takesDown _ hvalid => simp [h] at hvalid
  | refused _ _ hvalid => simp [h] at hvalid
  | handle j hj hhandle _ _ =>
    have hot := congrArg BoundedCap.otype (hc.symm.trans hhandle)
    simpa [PortTables.handle] using hot

theorem validCocarrier_of_validateCosendArgs {args : CosendArgs s}
    (h : s.validateCosendArgs args = some true) :
    s.validCocarrier args.cocarrier.cap = some true := by
  simp only [PortTables.validateCosendArgs] at h
  split at h
  · cases h
  · split at h
    · cases h
    · split at h
      · cases h
      · obtain ⟨valid, hvalid, h⟩ := Option.bind_eq_some_iff.mp h
        cases valid with
        | false => cases h
        | true => exact hvalid

/-- The calls other than `COCLOSE` and `COPORT_MSG_FREE` are made on cocarriers. -/
theorem type_of_validate (hserves : Serves r call) (hnames : Names (s.handle type i) r)
    (hvalid : validate r = some true) :
    call = .coclose ∨ (∃ buf, call = .comsgFree buf) ∨ type = .cocarrier := by
  cases r with
  | coclose port =>
    cases call <;> first | exact .inl rfl | cases hserves
  | comsgFree port message =>
    cases call <;> first | exact .inr (.inl ⟨_, rfl⟩) | cases hserves
  | corecv cocarrier => exact .inr (.inr (type_of_validCocarrier hnames hvalid))
  | cosend args =>
    have hcarrier := validCocarrier_of_validateCosendArgs hvalid
    exact .inr (.inr (type_of_validCocarrier hnames hcarrier))
  | copoll ncoports coports =>
    obtain ⟨k, hk, hread⟩ := hnames
    obtain ⟨c, hread, hc⟩ := Option.map_eq_some_iff.mp hread
    cases loopCase coports 0 ncoports with
    | accepted hall _ =>
      obtain ⟨c', j, hread', -, hhandle⟩ := hall k (Nat.zero_le k) (by omega)
      obtain rfl : c = c' := Option.some.inj (hread.symm.trans hread')
      have hot := congrArg BoundedCap.otype (hc.symm.trans hhandle)
      exact .inr (.inr (by simpa [PortTables.handle] using hot))
    | faulted _ _ _ _ hloop =>
      simp [validate, validateCopollArgs, hloop] at hvalid
    | refused _ _ _ _ _ _ _ hloop =>
      simp [validate, validateCopollArgs, hloop] at hvalid

end Accepts

/-- A handler whose validator accepts the coport keeps to what the type of the coport provides,
except for `free_comsg` on a coport that is not a cocarrier. -/
theorem handlers_keep_to_type_iff {s : PortTables} {r : PortRequest s} {call : PortCall}
    {type : CoportType} {i : Nat} {port : AnyPort}
    (hreach : Reach portStep anyAct (AnyPort.init type) port) (hserves : Serves r call)
    (hnames : Names (s.handle type i) r) (hvalid : validate r = some true) :
    (∃ result, portHandler port call = .ok result) ↔
      ¬(type ≠ .cocarrier ∧ ∃ buf, call = .comsgFree buf) := by
  have hok := portOk_reach hreach
  cases port with
  | cocarrier p =>
    obtain ⟨result, hr, -⟩ := handler_cocarrier (hok.inRange p rfl) call
    refine iff_of_true ⟨result, hr⟩ ?_
    rintro ⟨hne, -⟩
    exact hne hok.type.symm
  | copipe info buf | cochannel info buf =>
    have hne : type ≠ .cocarrier := by
      rw [← hok.type]
      simp [AnyPort.type]
    rcases type_of_validate hserves hnames hvalid with rfl | ⟨msg, rfl⟩ | htype
    · refine iff_of_true ⟨_, rfl⟩ ?_
      rintro ⟨-, msg, heq⟩
      cases heq
    · refine iff_of_false ?_ (fun hno => hno ⟨hne, msg, rfl⟩)
      rintro ⟨result, hr⟩
      cases hr
    · exact absurd htype hne

/-- One coport of each type has been opened. -/
def onePortEach : PortTables where
  base type := type.toInt.toNat * 2 ^ 20
  length _ := 256 * sizeofCoportTblEntry
  nextCoport _ := 1
  mem addr := if addr % 2 ^ 20 = offsetType then (addr / 2 ^ 20 : Nat) else 0
  fits _ := by decide
  typed type i hi := by
    obtain rfl : i = 0 := by omega
    cases type <;> decide

/-- Its handle. -/
def openedHandle (type : CoportType) : ClientCap onePortEach where
  cap := onePortEach.handle type 0
  unforged type' _ hot := by
    cases hot
    exact ⟨0, Nat.one_pos, rfl⟩

/-- A `coclose` of a copipe keeps to what a copipe has. -/
theorem handlers_keep_to_type_iff_close :
    ∃ result, portHandler (AnyPort.init .copipe) .coclose = .ok result := by
  have hvalid : validate (.coclose (openedHandle .copipe)) = some true := by decide
  have hserves : Serves (.coclose (openedHandle .copipe)) .coclose := trivial
  have hnames : Names (onePortEach.handle .copipe 0) (.coclose (openedHandle .copipe)) := rfl
  refine (handlers_keep_to_type_iff .init hserves hnames hvalid).mpr ?_
  rintro ⟨-, buf, heq⟩
  cases heq

/-- A `COPORT_MSG_FREE` on a copipe where a receiver waits is accepted, and `free_comsg` reads the
buffer of the receiver as message pointers. -/
theorem free_reads_receiver_buffer :
    ∃ port, Reach portStep anyAct (AnyPort.init .copipe) port ∧
      validate (.comsgFree (openedHandle .copipe) (openedHandle .copipe).cap) = some true ∧
      portHandler port (.comsgFree ⟨0, []⟩) = .error .bufferAsMessages :=
  ⟨_, .next (.publish (some 4096)) .init trivial rfl, by decide, rfl⟩

end Comsg.Proofs.Ipcd
