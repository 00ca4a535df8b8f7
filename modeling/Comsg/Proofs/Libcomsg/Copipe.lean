import Comsg.Lib.Transition
import Comsg.Libcomsg.Copipe

/-!
# `Comsg.Proofs.Libcomsg.Copipe`: the rendezvous on a copipe is exclusive

`Phase` with `Phase.next` is the rendezvous as it is meant: a receiver publishes, one sender
copies and releases, the receiver completes. `Stage` says for each phase which status the port
has and where the threads are. Every step of a thread moves the state on within its phase or by
an event that the phase admits (`advances_does`). So the log of every run is a run of the
rendezvous (`stage_reach`), and what is wanted of the copies and completions can be read off
the log (`CopiesGuarded`, `CompletionsMatched`).

The closer takes the port from `COPORT_OPEN` only, and no receiver is published then. A sender
that refuses an untagged buffer releases `COPORT_DONE` as well, so a completion without a copy
before it is possible.
-/

set_option autoImplicit false

namespace Comsg.Proofs.Libcomsg

open Comsg.Lib
open Comsg.Libcomsg

/-! ### What a step does -/

/-- The acquisitions: from which status of the port, and where they lead. -/
inductive Takes : CopipePc → CoportStatus → CopipePc → Prop
  | recv (buf : BufCap) : Takes (.recvEnter buf) .coportOpen (.recvHeld buf)
  | done (buf : BufCap) : Takes (.recvWait buf) .coportDone (.recvTake buf)
  | send (buf : List UInt8) (len : SizeT) :
      Takes (.sendEnter buf len) .coportReady (.sendHeld buf len)
  | close : Takes .closeEnter .coportOpen .closeHeld

/-- The thread is in no call. -/
def Rests : CopipePc → Prop
  | .idle | .returned _ | .closed => True
  | _ => False

/-- What an action of thread `t` does. -/
inductive Does (s : Copipe) (t : Nat) : Copipe → Prop
  | call (call : CopipeCall) (hpc : Rests (s.pc t)) : Does s t (s.goto t (Copipe.enter call))
  /-- A round of an acquisition that finds another status. -/
  | retry : Does s t s
  /-- The port is closed. The first test of `coport_close` is one of these as well. -/
  | pipeError (hst : s.status = .coportClosing ∨ s.status = .coportClosed)
      (hpc : s.pc t = .closeTest ∨ ∃ expected pc, Takes (s.pc t) expected pc) :
      Does s t (s.goto t (.returned (.err .epipe)))
  | take (expected : CoportStatus) (pc : CopipePc) (h : Takes (s.pc t) expected pc)
      (hst : s.status = expected) : Does s t ({ s with status := .coportBusy }.goto t pc)
  | publish (buf : BufCap) (hpc : s.pc t = .recvHeld buf) :
      Does s t (({ s with buf := buf }.goto t (.recvPublished buf)).note (.publish t buf))
  | ready (buf : BufCap) (hpc : s.pc t = .recvPublished buf) :
      Does s t ({ s with status := .coportReady }.goto t (.recvWait buf))
  | taken (buf : BufCap) (hpc : s.pc t = .recvTake buf) :
      Does s t ({ s with buf := nullBuf, length := 0 }.goto t (.recvTaken buf s.length))
  | complete (buf : BufCap) (n : SizeT) (bytes : List UInt8) (hpc : s.pc t = .recvTaken buf n)
      (hbytes : bytes = (s.mem buf.obj).take n.toNat) :
      Does s t (({ s with status := .coportOpen }.goto t (.returned (.received n bytes))).note
        (.complete t n bytes))
  | untagged (buf : List UInt8) (len : SizeT) (hpc : s.pc t = .sendHeld buf len)
      (htag : s.buf.tag = false) : Does s t (s.goto t (.sendRelease .coportDone .eprot))
  | tooLong (buf : List UInt8) (len : SizeT) (hpc : s.pc t = .sendHeld buf len) :
      Does s t (s.goto t (.sendRelease .coportReady .emsgsize))
  | copy (buf : List UInt8) (len : SizeT) (bytes : List UInt8) (hpc : s.pc t = .sendHeld buf len)
      (hcopy : memcpy (s.mem s.buf.obj) 0 buf 0 len.toNat = some bytes) :
      Does s t (({ s with
        mem := Function.update s.mem s.buf.obj bytes
        length := len }.goto t (.sendCopied len)).note (.copy t s.buf (buf.take len.toNat)))
  | refused (status : CoportStatus) (error : Errno) (hpc : s.pc t = .sendRelease status error) :
      Does s t (s.sendStore t status (.err error))
  | sent (len : SizeT) (hpc : s.pc t = .sendCopied len) :
      Does s t (s.sendStore t .coportDone (.sent len))
  | closing (hpc : s.pc t = .closeTest)
      (hst : s.status ≠ .coportClosing ∧ s.status ≠ .coportClosed) : Does s t (s.goto t .closeEnter)
  | mark (hpc : s.pc t = .closeHeld) :
      Does s t ({ s with event := s.event &&& ~~~copollOut ||| copollClosed }.goto t .closeMarked)
  | close (hpc : s.pc t = .closeMarked) :
      Does s t ({ s with status := .coportClosing }.goto t .closed)

/-- The thread of an action. -/
def actor : CopipeAct → Nat
  | .call t _ => t
  | .step t   => t

section Inversion
variable {s s' : Copipe} {t : Nat} {pc : CopipePc}

/-- The outcomes of one round of an acquisition. -/
theorem acquire_cases (s : Copipe) (t : Nat) (pc : CopipePc) {expected : CoportStatus}
    (hopen : expected ≠ .coportClosing) (hopen' : expected ≠ .coportClosed) :
    s.acquire t expected pc = s ∨
    ((s.status = .coportClosing ∨ s.status = .coportClosed) ∧
      s.acquire t expected pc = s.goto t (.returned (.err .epipe))) ∨
    (s.status = expected ∧
      s.acquire t expected pc = { s with status := .coportBusy }.goto t pc) := by
  unfold Copipe.acquire acquireCoportStatus
  by_cases heq : s.status = expected
  · simp [heq, hopen, hopen']
  · cases hst : s.status <;> simp_all

theorem Takes.does {expected : CoportStatus} (h : Takes (s.pc t) expected pc) :
    Does s t (s.acquire t expected pc) := by
  have hopen : expected ≠ .coportClosing ∧ expected ≠ .coportClosed := by
    generalize s.pc t = c at h
    cases h <;> decide
  rcases acquire_cases s t pc hopen.1 hopen.2 with heq | ⟨hst, heq⟩ | ⟨hst, heq⟩ <;> rw [heq]
  · exact .retry
  · exact .pipeError hst (.inr ⟨expected, pc, h⟩)
  · exact .take expected pc h hst

theorem sendWork_does {buf : List UInt8} {len : SizeT} (hpc : s.pc t = .sendHeld buf len)
    (hs : s.sendWork t buf len = some s') : Does s t s' := by
  simp only [Copipe.sendWork] at hs
  split at hs
  · rename_i htag
    cases hs
    exact .untagged buf len hpc htag
  · split at hs
    · cases hs
      exact .tooLong buf len hpc
    · obtain ⟨bytes, hcopy, hs⟩ := Option.bind_eq_some_iff.mp hs
      cases hs
      exact .copy buf len bytes hpc hcopy

theorem does_of_step {act : CopipeAct} (hs : s.step act = some s') : Does s (actor act) s' := by
  cases act with
  | call t call =>
    cases hpc : s.pc t <;> simp only [Copipe.step, hpc] at hs <;> cases hs <;>
      exact .call call (by simp [actor, hpc, Rests])
  | step t =>
    simp only [Copipe.step, Copipe.next] at hs
    cases hpc : s.pc t <;> simp only [hpc, Option.some.injEq, reduceCtorEq] at hs
    case recvEnter buf => exact hs ▸ Takes.does (hpc ▸ .recv buf)
    case recvHeld buf => exact hs ▸ .publish buf hpc
    case recvPublished buf => exact hs ▸ .ready buf hpc
    case recvWait buf => exact hs ▸ Takes.does (hpc ▸ .done buf)
    case recvTake buf => exact hs ▸ .taken buf hpc
    case recvTaken buf n => exact hs ▸ .complete buf n _ hpc rfl
    case sendEnter buf len => exact hs ▸ Takes.does (hpc ▸ .send buf len)
    case sendHeld buf len => exact sendWork_does hpc hs
    case sendRelease status error => exact hs ▸ .refused status error hpc
    case sendCopied len => exact hs ▸ .sent len hpc
    case closeTest =>
      split at hs <;> rename_i hst <;> cases hs
      · exact .pipeError hst.symm (.inl hpc)
      · rw [not_or] at hst
        exact .closing hpc hst.symm
    case closeEnter => exact hs ▸ Takes.does (hpc ▸ .close)
    case closeHeld => exact hs ▸ .mark hpc
    case closeMarked => exact hs ▸ .close hpc

end Inversion

/-! ### The rendezvous as it is meant -/

/-- Where a rendezvous is: nobody has published, a receiver waits, a sender has copied its
message, a sender has released. -/
inductive Phase
  | free
  | offered (receiver : Nat) (buf : BufCap)
  | copied (receiver : Nat) (buf : BufCap) (sender : Nat) (data : List UInt8)
  | released (receiver : Nat) (buf : BufCap) (sender : Nat) (data : Option (List UInt8))
  deriving DecidableEq, Repr

/-- The events a rendezvous admits. A sender copies once, into the published buffer, and then
releases. A sender that finds an untagged buffer releases without a copy. Only the receiver that
published completes, with the bytes that were copied. -/
def Phase.next : Phase → CopipeEvent → Option Phase
  | .free, .publish r buf => some (.offered r buf)
  | .offered r buf, .copy t buf' data => if buf' = buf then some (.copied r buf t data) else none
  | .offered r buf, .done t => some (.released r buf t none)
  | .copied r buf t data, .done u => if u = t then some (.released r buf t (some data)) else none
  | .released r _ _ data, .complete r' n bytes =>
    if r' = r ∧ ∀ d ∈ data, n.toNat = d.length ∧ bytes = d then some .free else none
  | _, _ => none

/-! ### What a state is in -/

/-- The thread has no part in a rendezvous and does not hold the port. -/
def Passive : CopipePc → Prop
  | .idle | .returned _ | .closed | .recvEnter _ | .sendEnter _ _ | .closeTest | .closeEnter => True
  | _ => False

/-- The thread holds the port before it publishes, or to close it. -/
def Enters : CopipePc → Prop
  | .recvHeld _ | .closeHeld | .closeMarked => True
  | _ => False

/-- The thread holds the port to send, and has not copied. -/
def Sends : CopipePc → Prop
  | .sendHeld _ _ => True
  | .sendRelease status _ => status = .coportReady ∨ status = .coportDone
  | _ => False

/-- A receiver between the publication of its buffer and its completion. -/
def Publishes : CopipePc → Prop
  | .recvPublished _ | .recvWait _ | .recvTake _ | .recvTaken _ _ => True
  | _ => False

attribute [local simp] Passive Enters Sends Publishes

theorem Publishes.not_passive {pc : CopipePc} (h : Publishes pc) : ¬Passive pc := by
  cases pc <;> simp_all

theorem Enters.not_passive {pc : CopipePc} (h : Enters pc) : ¬Passive pc := by
  cases pc <;> simp_all

theorem Sends.not_passive {pc : CopipePc} (h : Sends pc) : ¬Passive pc := by
  cases pc <;> simp_all

theorem Sends.not_enters {pc : CopipePc} (h : Sends pc) : ¬Enters pc := by
  cases pc <;> simp_all

/-- The message `data` is in the memory of the receiver, and `n` is its length. -/
def Delivered (n : SizeT) (mem : List UInt8) (data : Option (List UInt8)) : Prop :=
  ∀ d ∈ data, n.toNat = d.length ∧ mem.take d.length = d

/-- The states of the port and of the threads in each phase of a rendezvous. -/
inductive Stage (s : Copipe) : Phase → Prop
  | rest
      (hst : s.status = .coportOpen ∨ s.status = .coportClosing ∨ s.status = .coportClosed)
      (hothers : ∀ u, Passive (s.pc u)) : Stage s .free
  | entered (t : Nat) (hst : s.status = .coportBusy) (hpc : Enters (s.pc t))
      (hothers : ∀ u, u ≠ t → Passive (s.pc u)) : Stage s .free
  | published (r : Nat) (buf : BufCap) (hst : s.status = .coportBusy)
      (hpc : s.pc r = .recvPublished buf) (hbuf : s.buf = buf)
      (hothers : ∀ u, u ≠ r → Passive (s.pc u)) : Stage s (.offered r buf)
  | ready (r : Nat) (buf : BufCap) (hst : s.status = .coportReady) (hpc : s.pc r = .recvWait buf)
      (hbuf : s.buf = buf) (hothers : ∀ u, u ≠ r → Passive (s.pc u)) : Stage s (.offered r buf)
  | sending (r t : Nat) (buf : BufCap) (hst : s.status = .coportBusy)
      (hpc : s.pc r = .recvWait buf) (hbuf : s.buf = buf) (hsend : Sends (s.pc t))
      (hothers : ∀ u, u ≠ r → u ≠ t → Passive (s.pc u)) : Stage s (.offered r buf)
  | copied (r t : Nat) (buf : BufCap) (data : List UInt8) (len : SizeT)
      (hst : s.status = .coportBusy) (hpc : s.pc r = .recvWait buf)
      (hsend : s.pc t = .sendCopied len) (hdata : Delivered s.length (s.mem buf.obj) (some data))
      (hothers : ∀ u, u ≠ r → u ≠ t → Passive (s.pc u)) : Stage s (.copied r buf t data)
  | done (r t : Nat) (buf : BufCap) (data : Option (List UInt8)) (hst : s.status = .coportDone)
      (hpc : s.pc r = .recvWait buf) (hdata : Delivered s.length (s.mem buf.obj) data)
      (hothers : ∀ u, u ≠ r → Passive (s.pc u)) : Stage s (.released r buf t data)
  | taking (r t : Nat) (buf : BufCap) (data : Option (List UInt8)) (hst : s.status = .coportBusy)
      (hpc : s.pc r = .recvTake buf) (hdata : Delivered s.length (s.mem buf.obj) data)
      (hothers : ∀ u, u ≠ r → Passive (s.pc u)) : Stage s (.released r buf t data)
  | taken (r t : Nat) (buf : BufCap) (n : SizeT) (data : Option (List UInt8))
      (hst : s.status = .coportBusy) (hpc : s.pc r = .recvTaken buf n)
      (hdata : Delivered n (s.mem buf.obj) data)
      (hothers : ∀ u, u ≠ r → Passive (s.pc u)) : Stage s (.released r buf t data)

section Stages
variable {s s' : Copipe} {phase : Phase} {t : Nat} {pc : CopipePc}

@[simp] theorem goto_pc_self : (s.goto t pc).pc t = pc := Function.update_self ..

theorem goto_pc_of_ne {u : Nat} (h : u ≠ t) : (s.goto t pc).pc u = s.pc u :=
  Function.update_of_ne h ..

/-- The other threads stay passive when `t` moves. -/
theorem others_update (hothers : ∀ u, u ≠ t → Passive (s.pc u)) :
    ∀ u, u ≠ t → Passive (Function.update s.pc t pc u) := by
  intro u hu
  rw [Function.update_of_ne hu]
  exact hothers u hu

theorem others_update_two {r : Nat} (hothers : ∀ u, u ≠ r → u ≠ t → Passive (s.pc u)) :
    ∀ u, u ≠ r → u ≠ t → Passive (Function.update s.pc t pc u) := by
  intro u hr hu
  rw [Function.update_of_ne hu]
  exact hothers u hr hu

/-- All threads are passive when the last one that is not becomes so. -/
theorem passive_update (hothers : ∀ u, u ≠ t → Passive (s.pc u)) (hpc : Passive pc) :
    ∀ u, Passive (Function.update s.pc t pc u) := by
  intro u
  by_cases hu : u = t
  · rw [hu, Function.update_self]
    exact hpc
  · exact others_update hothers u hu

theorem passive_update_two {r : Nat} (hothers : ∀ u, u ≠ r → u ≠ t → Passive (s.pc u))
    (hpc : Passive pc) : ∀ u, u ≠ r → Passive (Function.update s.pc t pc u) := by
  intro u hr
  by_cases hu : u = t
  · rw [hu, Function.update_self]
    exact hpc
  · exact others_update_two hothers u hr hu

/-- A thread without a part in the rendezvous moves on without one. -/
theorem Stage.goto_passive (h : Stage s phase) (hold : Passive (s.pc t)) (hnew : Passive pc) :
    Stage (s.goto t pc) phase := by
  -- The threads that take part are not `t`, and the others stay passive.
  have hpart {u : Nat} (hu : ¬Passive (s.pc u)) : (s.goto t pc).pc u = s.pc u :=
    goto_pc_of_ne fun heq => hu (heq ▸ hold)
  have hrest {u : Nat} (hu : Passive (s.pc u)) : Passive ((s.goto t pc).pc u) := by
    by_cases heq : u = t
    · rw [heq, goto_pc_self]
      exact hnew
    · rw [goto_pc_of_ne heq]
      exact hu
  cases h with
  | rest hst hothers => exact .rest hst fun u => hrest (hothers u)
  | entered r hst hpc hothers =>
    refine .entered r hst ?_ fun u hu => hrest (hothers u hu)
    rw [hpart hpc.not_passive]
    exact hpc
  | published r buf hst hpc hbuf hothers =>
    refine .published r buf hst ?_ hbuf fun u hu => hrest (hothers u hu)
    rw [hpart (by simp [hpc]), hpc]
  | ready r buf hst hpc hbuf hothers =>
    refine .ready r buf hst ?_ hbuf fun u hu => hrest (hothers u hu)
    rw [hpart (by simp [hpc]), hpc]
  | sending r v buf hst hpc hbuf hsend hothers =>
    refine .sending r v buf hst ?_ hbuf ?_ fun u hu hv => hrest (hothers u hu hv)
    · rw [hpart (by simp [hpc]), hpc]
    · rw [hpart hsend.not_passive]
      exact hsend
  | copied r v buf data len hst hpc hsend hdata hothers =>
    refine .copied r v buf data len hst ?_ ?_ hdata fun u hu hv => hrest (hothers u hu hv)
    · rw [hpart (by simp [hpc]), hpc]
    · rw [hpart (by simp [hsend]), hsend]
  | done r v buf data hst hpc hdata hothers =>
    refine .done r v buf data hst ?_ hdata fun u hu => hrest (hothers u hu)
    rw [hpart (by simp [hpc]), hpc]
  | taking r v buf data hst hpc hdata hothers =>
    refine .taking r v buf data hst ?_ hdata fun u hu => hrest (hothers u hu)
    rw [hpart (by simp [hpc]), hpc]
  | taken r v buf n data hst hpc hdata hothers =>
    refine .taken r v buf n data hst ?_ hdata fun u hu => hrest (hothers u hu)
    rw [hpart (by simp [hpc]), hpc]

/-- From a phase of the rendezvous the state moves on, within the phase or by an event it
admits. -/
def Advances (s : Copipe) (phase : Phase) (s' : Copipe) : Prop :=
  (s'.log = s.log ∧ Stage s' phase) ∨
  ∃ e phase', s'.log = s.log ++ [e] ∧ phase.next e = some phase' ∧ Stage s' phase'

/-- A thread takes the port to publish or to close. -/
theorem advances_enter (h : Stage s phase) (hst : s.status = .coportOpen) (hpc : Enters pc) :
    Advances s phase ({ s with status := .coportBusy }.goto t pc) := by
  -- The port is open, so no rendezvous is on its way.
  cases h with
  | rest _ hothers =>
    refine .inl ⟨rfl, .entered t rfl ?_ (others_update fun u _ => hothers u)⟩
    rw [goto_pc_self]
    exact hpc
  | _ => simp_all

/-- A sender takes the port. -/
theorem advances_sendEnter {buf : List UInt8} {len : SizeT} (h : Stage s phase)
    (hold : s.pc t = .sendEnter buf len) (hst : s.status = .coportReady) :
    Advances s phase ({ s with status := .coportBusy }.goto t (.sendHeld buf len)) := by
  cases h with
  | ready r out _ hpc hbuf hothers =>
    have hne : r ≠ t := by
      rintro rfl
      simp [hpc] at hold
    refine .inl ⟨rfl, .sending r t out rfl ?_ hbuf ?_
      (others_update_two fun u hu _ => hothers u hu)⟩
    · rw [goto_pc_of_ne hne]
      exact hpc
    · simp
  | _ => simp_all

/-- A receiver finds `COPORT_DONE`. -/
theorem advances_recvWait {buf : BufCap} (h : Stage s phase) (hold : s.pc t = .recvWait buf)
    (hst : s.status = .coportDone) :
    Advances s phase ({ s with status := .coportBusy }.goto t (.recvTake buf)) := by
  cases h with
  | done r v out data _ hpc hdata hothers =>
    have hrt : t = r := by
      by_contra hne
      have hpassive := hothers t hne
      simp [hold] at hpassive
    subst hrt
    rw [hold, CopipePc.recvWait.injEq] at hpc
    subst hpc
    exact .inl ⟨rfl, .taking t v buf data rfl goto_pc_self hdata (others_update hothers)⟩
  | _ => simp_all

theorem advances_take {expected : CoportStatus} (h : Stage s phase)
    (htakes : Takes (s.pc t) expected pc) (hst : s.status = expected) :
    Advances s phase ({ s with status := .coportBusy }.goto t pc) := by
  generalize hold : s.pc t = c at htakes
  cases htakes with
  | recv buf => exact advances_enter h hst trivial
  | done buf => exact advances_recvWait h hold hst
  | send buf len => exact advances_sendEnter h hold hst
  | close => exact advances_enter h hst trivial

/-- The status while a receiver has its buffer in the port. It is not open, and not closed
either. -/
theorem Stage.status_of_publishes (h : Stage s phase) (hpc : Publishes (s.pc t)) :
    s.status = .coportReady ∨ s.status = .coportBusy ∨ s.status = .coportDone := by
  cases h with
  | rest hst hothers => exact absurd (hothers t) hpc.not_passive
  | _ => simp_all

/-- A thread that finds the port closed has no part in a rendezvous. -/
theorem Stage.passive_of_closed {expected : CoportStatus} (h : Stage s phase)
    (hst : s.status = .coportClosing ∨ s.status = .coportClosed)
    (htakes : Takes (s.pc t) expected pc) : Passive (s.pc t) := by
  generalize hold : s.pc t = c at htakes
  cases htakes with
  | done buf =>
    have hpublishes : Publishes (s.pc t) := by simp [hold]
    rcases h.status_of_publishes hpublishes with heq | heq | heq <;> simp [heq] at hst
  | _ => trivial

/-! A thread that takes part in the rendezvous determines the stage. -/

theorem eq_of_not_passive {r : Nat} (hothers : ∀ u, u ≠ r → Passive (s.pc u))
    (ht : ¬Passive (s.pc t)) : t = r := by
  by_contra hne
  exact ht (hothers t hne)

theorem Stage.of_recvHeld {buf : BufCap} (h : Stage s phase) (hpc : s.pc t = .recvHeld buf) :
    phase = .free ∧ s.status = .coportBusy ∧ ∀ u, u ≠ t → Passive (s.pc u) := by
  cases h <;> grind [Passive, Enters, Sends]

theorem Stage.of_close (h : Stage s phase) (hpc : s.pc t = .closeHeld ∨ s.pc t = .closeMarked) :
    phase = .free ∧ s.status = .coportBusy ∧ ∀ u, u ≠ t → Passive (s.pc u) := by
  cases h <;> grind [Passive, Enters, Sends]

theorem Stage.of_recvPublished {buf : BufCap} (h : Stage s phase)
    (hpc : s.pc t = .recvPublished buf) :
    phase = .offered t buf ∧ s.buf = buf ∧ ∀ u, u ≠ t → Passive (s.pc u) := by
  cases h <;> grind [Passive, Enters, Sends]

theorem Stage.of_recvTake {buf : BufCap} (h : Stage s phase) (hpc : s.pc t = .recvTake buf) :
    ∃ v data, phase = .released t buf v data ∧ s.status = .coportBusy ∧
      Delivered s.length (s.mem buf.obj) data ∧ ∀ u, u ≠ t → Passive (s.pc u) := by
  cases h with
  | taking r v out data hst hout hdata hothers =>
    have hrt : t = r := eq_of_not_passive hothers (by simp [hpc])
    subst hrt
    rw [hpc, CopipePc.recvTake.injEq] at hout
    subst hout
    exact ⟨v, data, rfl, hst, hdata, hothers⟩
  | _ => grind [Passive, Enters, Sends]

theorem Stage.of_recvTaken {buf : BufCap} {n : SizeT} (h : Stage s phase)
    (hpc : s.pc t = .recvTaken buf n) :
    ∃ v data, phase = .released t buf v data ∧ Delivered n (s.mem buf.obj) data ∧
      ∀ u, u ≠ t → Passive (s.pc u) := by
  cases h with
  | taken r v out m data hst hout hdata hothers =>
    have hrt : t = r := eq_of_not_passive hothers (by simp [hpc])
    subst hrt
    rw [hpc, CopipePc.recvTaken.injEq] at hout
    obtain ⟨rfl, rfl⟩ := hout
    exact ⟨v, data, rfl, hdata, hothers⟩
  | _ => grind [Passive, Enters, Sends]

theorem Stage.of_sends (h : Stage s phase) (hpc : Sends (s.pc t)) :
    ∃ r, phase = .offered r s.buf ∧ s.status = .coportBusy ∧ r ≠ t ∧ s.pc r = .recvWait s.buf ∧
      ∀ u, u ≠ r → u ≠ t → Passive (s.pc u) := by
  cases h with
  | sending r v out hst hout hbuf hsend hothers =>
    subst hbuf
    have hne : r ≠ t := by
      rintro rfl
      simp [hout] at hpc
    have htv : t = v := by
      by_contra hv
      exact hpc.not_passive (hothers t (Ne.symm hne) hv)
    subst htv
    exact ⟨r, rfl, hst, hne, hout, hothers⟩
  | _ => grind [Sends, Sends.not_passive, Sends.not_enters]

/-- The error exits of a send release to `COPORT_READY` or `COPORT_DONE`. -/
theorem Stage.of_sendRelease {status : CoportStatus} {error : Errno} (h : Stage s phase)
    (hpc : s.pc t = .sendRelease status error) : Sends (s.pc t) := by
  cases h with
  | sending r v out hst hout hbuf hsend hothers =>
    by_cases htv : t = v
    · rw [htv]
      exact hsend
    · have hpassive := hothers t (by rintro rfl; simp [hout] at hpc) htv
      simp [hpc] at hpassive
  | _ => grind [Passive, Enters, Sends]

theorem Stage.of_sendCopied {len : SizeT} (h : Stage s phase) (hpc : s.pc t = .sendCopied len) :
    ∃ r buf data, phase = .copied r buf t data ∧ r ≠ t ∧ s.pc r = .recvWait buf ∧
      Delivered s.length (s.mem buf.obj) (some data) ∧
      ∀ u, u ≠ r → u ≠ t → Passive (s.pc u) := by
  cases h with
  | copied r v out data n hst hout hsend hdata hothers =>
    have hne : r ≠ t := by
      rintro rfl
      simp [hout] at hpc
    have htv : t = v := by
      by_contra hv
      have hpassive := hothers t (Ne.symm hne) hv
      simp [hpc] at hpassive
    subst htv
    exact ⟨r, out, data, rfl, hne, hout, hdata, hothers⟩
  | _ => grind [Passive, Enters, Sends]

/-! ### The steps -/

theorem advances_recvHeld {buf : BufCap} (h : Stage s phase) (hpc : s.pc t = .recvHeld buf) :
    Advances s phase
      (({ s with buf := buf }.goto t (.recvPublished buf)).note (.publish t buf)) := by
  obtain ⟨rfl, hst, hothers⟩ := h.of_recvHeld hpc
  exact .inr ⟨_, _, rfl, rfl, .published t buf hst goto_pc_self rfl (others_update hothers)⟩

theorem advances_recvPublished {buf : BufCap} (h : Stage s phase)
    (hpc : s.pc t = .recvPublished buf) :
    Advances s phase ({ s with status := .coportReady }.goto t (.recvWait buf)) := by
  obtain ⟨rfl, hbuf, hothers⟩ := h.of_recvPublished hpc
  exact .inl ⟨rfl, .ready t buf rfl goto_pc_self hbuf (others_update hothers)⟩

theorem advances_recvTake {buf : BufCap} (h : Stage s phase) (hpc : s.pc t = .recvTake buf) :
    Advances s phase
      ({ s with buf := nullBuf, length := 0 }.goto t (.recvTaken buf s.length)) := by
  obtain ⟨v, data, rfl, hst, hdata, hothers⟩ := h.of_recvTake hpc
  exact .inl ⟨rfl, .taken t v buf s.length data hst goto_pc_self hdata (others_update hothers)⟩

theorem advances_recvTaken {buf : BufCap} {n : SizeT} {bytes : List UInt8} (h : Stage s phase)
    (hpc : s.pc t = .recvTaken buf n) (hbytes : bytes = (s.mem buf.obj).take n.toNat) :
    Advances s phase
      (({ s with status := .coportOpen }.goto t (.returned (.received n bytes))).note
        (.complete t n bytes)) := by
  obtain ⟨v, data, rfl, hdata, hothers⟩ := h.of_recvTaken hpc
  have hcomplete : ∀ d ∈ data, n.toNat = d.length ∧ bytes = d := by
    intro d hd
    obtain ⟨hlen, hmem⟩ := hdata d hd
    exact ⟨hlen, by rw [hbytes, hlen, hmem]⟩
  exact .inr ⟨_, .free, rfl, if_pos ⟨rfl, hcomplete⟩,
    .rest (.inl rfl) (passive_update hothers trivial)⟩

theorem advances_close (h : Stage s phase) (hpc : s.pc t = .closeHeld) (event : CoportEventmask) :
    Advances s phase ({ s with event := event }.goto t .closeMarked) := by
  obtain ⟨rfl, hst, hothers⟩ := h.of_close (.inl hpc)
  refine .inl ⟨rfl, .entered t hst ?_ (others_update hothers)⟩
  rw [goto_pc_self]
  trivial

theorem advances_closeMarked (h : Stage s phase) (hpc : s.pc t = .closeMarked) :
    Advances s phase ({ s with status := .coportClosing }.goto t .closed) := by
  obtain ⟨rfl, -, hothers⟩ := h.of_close (.inr hpc)
  exact .inl ⟨rfl, .rest (.inr (.inl rfl)) (passive_update hothers trivial)⟩

/-- The message of a copy to the front of a buffer. -/
theorem delivered_of_memcpy {mem buf bytes : List UInt8} {len : SizeT}
    (h : memcpy mem 0 buf 0 len.toNat = some bytes) :
    Delivered len bytes (some (buf.take len.toNat)) := by
  unfold memcpy at h
  split at h
  · rename_i hbounds
    cases h
    rintro d ⟨⟩
    have hlen : (buf.take len.toNat).length = len.toNat := by
      rw [List.length_take]
      omega
    refine ⟨hlen.symm, ?_⟩
    rw [hlen]
    simp [hlen]
  · cases h

/-- A sender with the port refuses the buffer. -/
theorem advances_refuse {buf : List UInt8} {len : SizeT} {status : CoportStatus} {error : Errno}
    (h : Stage s phase) (hpc : s.pc t = .sendHeld buf len)
    (hstatus : status = .coportReady ∨ status = .coportDone) :
    Advances s phase (s.goto t (.sendRelease status error)) := by
  obtain ⟨r, rfl, hst, hne, hwait, hothers⟩ := h.of_sends (t := t) (by simp [hpc])
  refine .inl ⟨rfl, .sending r t s.buf hst ?_ rfl ?_ (others_update_two hothers)⟩
  · rw [goto_pc_of_ne hne]
    exact hwait
  · rw [goto_pc_self]
    exact hstatus

/-- A sender with the port copies into the buffer of the receiver that waits. -/
theorem advances_copy {buf bytes : List UInt8} {len : SizeT} (h : Stage s phase)
    (hpc : s.pc t = .sendHeld buf len)
    (hcopy : memcpy (s.mem s.buf.obj) 0 buf 0 len.toNat = some bytes) :
    Advances s phase (({ s with
      mem := Function.update s.mem s.buf.obj bytes
      length := len }.goto t (.sendCopied len)).note (.copy t s.buf (buf.take len.toNat))) := by
  obtain ⟨r, rfl, hst, hne, hwait, hothers⟩ := h.of_sends (t := t) (by simp [hpc])
  have hwait' {pc : CopipePc} : Function.update s.pc t pc r = .recvWait s.buf := by
    rw [Function.update_of_ne hne]
    exact hwait
  refine .inr ⟨_, _, rfl, if_pos rfl, .copied r t s.buf _ len hst hwait' goto_pc_self ?_
    (others_update_two hothers)⟩
  show Delivered len (Function.update s.mem s.buf.obj bytes s.buf.obj) _
  rw [Function.update_self]
  exact delivered_of_memcpy hcopy

/-- The releasing store of an error exit. -/
theorem advances_sendRelease {status : CoportStatus} {error : Errno} (h : Stage s phase)
    (hpc : s.pc t = .sendRelease status error) :
    Advances s phase (s.sendStore t status (.err error)) := by
  have hsends := h.of_sendRelease hpc
  obtain ⟨r, rfl, -, hne, hwait, hothers⟩ := h.of_sends hsends
  have hwait' {pc : CopipePc} : Function.update s.pc t pc r = .recvWait s.buf := by
    rw [Function.update_of_ne hne]
    exact hwait
  have hrest : ∀ u, u ≠ r → Passive (Function.update s.pc t (.returned (.err error)) u) :=
    passive_update_two hothers trivial
  rw [hpc] at hsends
  rcases hsends with rfl | rfl
  · exact .inl ⟨rfl, .ready r s.buf rfl hwait' rfl hrest⟩
  · exact .inr ⟨.done t, _, rfl, rfl, .done r t s.buf none rfl hwait' (by simp [Delivered]) hrest⟩

/-- The releasing store of a send that copied. -/
theorem advances_sendCopied {len : SizeT} (h : Stage s phase) (hpc : s.pc t = .sendCopied len) :
    Advances s phase (s.sendStore t .coportDone (.sent len)) := by
  obtain ⟨r, buf, data, rfl, hne, hwait, hdata, hothers⟩ := h.of_sendCopied hpc
  have hwait' : Function.update s.pc t (.returned (.sent len)) r = .recvWait buf := by
    rw [Function.update_of_ne hne]
    exact hwait
  exact .inr ⟨.done t, _, rfl, if_pos rfl, .done r t buf (some data) rfl hwait' hdata
    (passive_update_two hothers trivial)⟩

/-- A call begins without a part in the rendezvous. -/
theorem passive_enter (call : CopipeCall) : Passive (Copipe.enter call) := by
  cases call with
  | corecv buf len =>
    simp only [Copipe.enter]
    split
    · trivial
    · split <;> trivial
  | cosend buf len =>
    simp only [Copipe.enter]
    split <;> trivial
  | coclose => trivial

/-- Every action of a thread advances the rendezvous or leaves it in its phase. -/
theorem advances_does (h : Stage s phase) (hdoes : Does s t s') : Advances s phase s' := by
  cases hdoes with
  | call call hpc =>
    have hpassive : Passive (s.pc t) := by
      generalize s.pc t = c at hpc
      cases c <;> trivial
    exact .inl ⟨rfl, h.goto_passive hpassive (passive_enter call)⟩
  | retry => exact .inl ⟨rfl, h⟩
  | pipeError hst hpc =>
    have hpassive : Passive (s.pc t) := by
      rcases hpc with hpc | ⟨expected, pc, htakes⟩
      · simp [hpc]
      · exact h.passive_of_closed hst htakes
    exact .inl ⟨rfl, h.goto_passive hpassive trivial⟩
  | take expected pc htakes hst => exact advances_take h htakes hst
  | publish buf hpc => exact advances_recvHeld h hpc
  | ready buf hpc => exact advances_recvPublished h hpc
  | taken buf hpc => exact advances_recvTake h hpc
  | complete buf n bytes hpc hbytes => exact advances_recvTaken h hpc hbytes
  | untagged buf len hpc htag => exact advances_refuse h hpc (.inr rfl)
  | tooLong buf len hpc => exact advances_refuse h hpc (.inl rfl)
  | copy buf len bytes hpc hcopy => exact advances_copy h hpc hcopy
  | refused status error hpc => exact advances_sendRelease h hpc
  | sent len hpc => exact advances_sendCopied h hpc
  | closing hpc hst => exact .inl ⟨rfl, h.goto_passive (by simp [hpc]) trivial⟩
  | mark hpc => exact advances_close h hpc _
  | close hpc => exact advances_closeMarked h hpc

end Stages

/-! ### The log of a rendezvous -/

section Log
variable {l : List CopipeEvent} {r t : Nat} {buf : BufCap}

/-- The events a rendezvous admits, as a relation. -/
inductive Admits : Phase → CopipeEvent → Phase → Prop
  | publish (r : Nat) (buf : BufCap) : Admits .free (.publish r buf) (.offered r buf)
  | copy (r : Nat) (buf : BufCap) (t : Nat) (data : List UInt8) :
      Admits (.offered r buf) (.copy t buf data) (.copied r buf t data)
  | release (r : Nat) (buf : BufCap) (t : Nat) :
      Admits (.offered r buf) (.done t) (.released r buf t none)
  | releaseCopied (r : Nat) (buf : BufCap) (t : Nat) (data : List UInt8) :
      Admits (.copied r buf t data) (.done t) (.released r buf t (some data))
  | complete (r : Nat) (buf : BufCap) (t : Nat) (data : Option (List UInt8)) (n : SizeT)
      (bytes : List UInt8) (hdata : ∀ d ∈ data, n.toNat = d.length ∧ bytes = d) :
      Admits (.released r buf t data) (.complete r n bytes) .free

theorem admits_of_next {q q' : Phase} {e : CopipeEvent} (h : q.next e = some q') :
    Admits q e q' := by
  unfold Phase.next at h
  split at h
  · cases h
    exact .publish _ _
  · split at h
    · rename_i hbuf
      cases h
      exact hbuf ▸ .copy _ _ _ _
    · cases h
  · cases h
    exact .release _ _ _
  · split at h
    · rename_i hsender
      cases h
      exact hsender ▸ .releaseCopied _ _ _ _
    · cases h
  · split at h
    · rename_i hreceiver
      cases h
      exact hreceiver.1 ▸ .complete _ _ _ _ _ _ hreceiver.2
    · cases h
  · cases h

/-- A log that leads out of the free phase ends with an event that the last phase comes from. -/
theorem log_ends {phase : Phase} (h : runFrom Phase.next .free l = some phase)
    (hfree : phase ≠ .free) :
    ∃ a e q, l = a ++ [e] ∧ runFrom Phase.next .free a = some q ∧ Admits q e phase := by
  rcases List.eq_nil_or_concat l with rfl | ⟨a, e, rfl⟩
  · cases h
    exact absurd rfl hfree
  · obtain ⟨q, hrun, hq⟩ := runFrom_concat h
    exact ⟨a, e, q, List.concat_eq_append, hrun, admits_of_next hq⟩

/-- A receiver waits: its publication is the last event. -/
theorem log_of_offered (h : runFrom Phase.next .free l = some (.offered r buf)) :
    ∃ a, l = a ++ [CopipeEvent.publish r buf] := by
  obtain ⟨a, e, q, rfl, hrun, hq⟩ := log_ends h (by simp)
  cases hq
  exact ⟨a, rfl⟩

theorem log_of_copied {data : List UInt8}
    (h : runFrom Phase.next .free l = some (.copied r buf t data)) :
    ∃ a, l = a ++ [CopipeEvent.publish r buf, CopipeEvent.copy t buf data] := by
  obtain ⟨a, e, q, rfl, hrun, hq⟩ := log_ends h (by simp)
  cases hq
  obtain ⟨a', rfl⟩ := log_of_offered hrun
  exact ⟨a', by simp⟩

/-- A sender has released: the publication, at most one copy and the release are the last
events. -/
theorem log_of_released {data : Option (List UInt8)}
    (h : runFrom Phase.next .free l = some (.released r buf t data)) :
    (data = none ∧ ∃ a, l = a ++ [CopipeEvent.publish r buf, CopipeEvent.done t]) ∨
    ∃ d, data = some d ∧ ∃ a,
      l = a ++ [CopipeEvent.publish r buf, CopipeEvent.copy t buf d, CopipeEvent.done t] := by
  obtain ⟨a, e, q, rfl, hrun, hq⟩ := log_ends h (by simp)
  cases hq with
  | release =>
    obtain ⟨a', rfl⟩ := log_of_offered hrun
    exact .inl ⟨rfl, a', by simp⟩
  | releaseCopied r buf t data =>
    obtain ⟨a', rfl⟩ := log_of_copied hrun
    exact .inr ⟨data, rfl, a', by simp⟩

/-- Every copy is into the buffer published just before it. It is followed by the release of its
sender and by the completion of that receiver, with the copied bytes, as far as the log goes. -/
def CopiesGuarded (log : List CopipeEvent) : Prop :=
  ∀ l₁ l₂ t buf d, log = l₁ ++ .copy t buf d :: l₂ → ∃ a r, l₁ = a ++ [.publish r buf] ∧
    (l₂ = [] ∨ l₂ = [.done t] ∨
      ∃ n rest, n.toNat = d.length ∧ l₂ = .done t :: .complete r n d :: rest)

/-- Every completion comes right after a release, which comes after the publication of that
receiver, with at most the copy of that sender between them. -/
def CompletionsMatched (log : List CopipeEvent) : Prop :=
  ∀ l₁ l₂ r n bytes, log = l₁ ++ .complete r n bytes :: l₂ → ∃ a buf t,
    l₁ = a ++ [.publish r buf, .done t] ∨
    (l₁ = a ++ [.publish r buf, .copy t buf bytes, .done t] ∧ n.toNat = bytes.length)

theorem copiesGuarded_of_run {phase : Phase} (h : runFrom Phase.next .free l = some phase) :
    CopiesGuarded l := by
  rintro l₁ l₂ t buf d rfl
  obtain ⟨q, hbefore, hafter⟩ := runFrom_split h
  obtain ⟨q', hcopy, hrest⟩ := Option.bind_eq_some_iff.mp hafter
  cases admits_of_next hcopy with
  | copy r =>
    obtain ⟨a, ha⟩ := log_of_offered hbefore
    refine ⟨a, r, ha, ?_⟩
    -- After the copy the rendezvous admits one event at a time.
    cases l₂ with
    | nil => exact .inl rfl
    | cons e l₂ =>
      obtain ⟨q, hdone, hrest⟩ := Option.bind_eq_some_iff.mp hrest
      cases admits_of_next hdone with
      | releaseCopied =>
        cases l₂ with
        | nil => exact .inr (.inl rfl)
        | cons e l₂ =>
          obtain ⟨q, hcomplete, -⟩ := Option.bind_eq_some_iff.mp hrest
          cases admits_of_next hcomplete with
          | complete _ _ _ _ n bytes hdata =>
            obtain ⟨hlen, rfl⟩ := hdata d rfl
            exact .inr (.inr ⟨n, l₂, hlen, rfl⟩)

theorem completionsMatched_of_run {phase : Phase}
    (h : runFrom Phase.next .free l = some phase) : CompletionsMatched l := by
  rintro l₁ l₂ r n bytes rfl
  obtain ⟨q, hbefore, hafter⟩ := runFrom_split h
  obtain ⟨q', hcomplete, -⟩ := Option.bind_eq_some_iff.mp hafter
  cases admits_of_next hcomplete with
  | complete _ buf t data _ _ hdata =>
    rcases log_of_released hbefore with ⟨-, a, ha⟩ | ⟨d, rfl, a, ha⟩
    · exact ⟨a, buf, t, .inl ha⟩
    · obtain ⟨hlen, rfl⟩ := hdata d rfl
      exact ⟨a, buf, t, .inr ⟨ha, hlen⟩⟩

end Log

/-! ### Runs -/

section Runs
variable {mem : Nat → List UInt8} {s s' : Copipe}

/-- The log of a run is a run of the rendezvous, and the state is in the phase it ends in. -/
theorem stage_reach (h : Reach Copipe.step anyAct (initCopipe mem) s) :
    ∃ phase, runFrom Phase.next .free s.log = some phase ∧ Stage s phase := by
  have hinit : Stage (initCopipe mem) .free := .rest (.inl rfl) fun _ => trivial
  induction h with
  | init => exact ⟨.free, rfl, hinit⟩
  | next act _ _ hs ih =>
  obtain ⟨phase, hlog, hstage⟩ := ih
  rcases advances_does hstage (does_of_step hs) with
    ⟨heq, hstage'⟩ | ⟨e, phase', heq, hnext, hstage'⟩
  · exact ⟨phase, heq ▸ hlog, hstage'⟩
  · refine ⟨phase', ?_, hstage'⟩
    rw [heq, runFrom_append _ _ hlog]
    simp [runFrom, hnext]

theorem Stage.publishes_unique {phase : Phase} (h : Stage s phase) {r r' : Nat}
    (hr : Publishes (s.pc r)) (hr' : Publishes (s.pc r')) : r = r' := by
  have hparts {pc : CopipePc} (hpc : Publishes pc) : ¬Passive pc ∧ ¬Enters pc ∧ ¬Sends pc := by
    cases pc <;> simp_all
  cases h <;> grind [Publishes]

theorem sendStore_mem {t : Nat} {status : CoportStatus} {reply : Reply} :
    (s.sendStore t status reply).mem = s.mem := by
  unfold Copipe.sendStore
  split <;> rfl

/-- An action that writes to the memory of the clients is the copy of a sender. -/
theorem mem_of_does {t : Nat} (h : Does s t s') :
    s'.mem = s.mem ∨ ∃ buf len bytes, s.pc t = .sendHeld buf len ∧
      s'.mem = Function.update s.mem s.buf.obj bytes ∧
      s'.log = s.log ++ [CopipeEvent.copy t s.buf (buf.take len.toNat)] := by
  cases h with
  | copy buf len bytes hpc hcopy => exact .inr ⟨buf, len, bytes, hpc, rfl, rfl⟩
  | refused status error hpc => exact .inl sendStore_mem
  | sent len hpc => exact .inl sendStore_mem
  | _ => exact .inl rfl

/-- A thread in a call takes steps, and does not call. -/
theorem act_of_not_rests {act : CopipeAct} (hs : s.step act = some s')
    (hpc : ¬Rests (s.pc (actor act))) : act = .step (actor act) := by
  cases act with
  | call t call =>
    simp only [Copipe.step] at hs
    split at hs <;> simp_all [actor, Rests]
  | step t => rfl

/-- The rendezvous of a copipe is exclusive. -/
theorem copipe_rendezvous_exclusive (h : Reach Copipe.step anyAct (initCopipe mem) s) :
    (∀ r r', Publishes (s.pc r) → Publishes (s.pc r') → r = r') ∧
    (∀ act s' o, s.step act = some s' → s'.mem o ≠ s.mem o →
      ∃ t r d, act = .step t ∧ s.pc r = .recvWait s.buf ∧ o = s.buf.obj ∧
        s'.log = s.log ++ [.copy t s.buf d]) ∧
    CopiesGuarded s.log ∧ CompletionsMatched s.log := by
  obtain ⟨phase, hlog, hstage⟩ := stage_reach h
  refine ⟨fun r r' => hstage.publishes_unique, fun act s' o hs ho => ?_,
    copiesGuarded_of_run hlog, completionsMatched_of_run hlog⟩
  rcases mem_of_does (does_of_step hs) with heq | ⟨buf, len, bytes, hpc, hmem, hlog'⟩
  · exact absurd (congrFun heq o) ho
  · obtain ⟨r, -, -, -, hwait, -⟩ := hstage.of_sends (t := actor act) (by simp [hpc])
    refine ⟨actor act, r, _, act_of_not_rests hs (by simp [hpc, Rests]), hwait, ?_, hlog'⟩
    by_contra hne
    rw [hmem, Function.update_of_ne hne] at ho
    exact ho rfl

end Runs

/-- A receive of one byte into buffer 0 by thread 0, and the send of thread 1 that meets it. -/
def oneRendezvous : List CopipeAct :=
  [.call 0 (.corecv ⟨true, 0, 1⟩ 1), .call 1 (.cosend [7] 1), .step 0, .step 0, .step 0, .step 1,
    .step 1, .step 1, .step 0, .step 0, .step 0]

/-- The log after one rendezvous. -/
theorem copipe_rendezvous_exclusive_one :
    ∃ s, Reach Copipe.step anyAct (initCopipe fun _ => [0]) s ∧
      s.log = [.publish 0 ⟨true, 0, 1⟩, .copy 1 ⟨true, 0, 1⟩ [7], .done 1, .complete 0 1 [7]] ∧
      s.mem 0 = [7] ∧ CopiesGuarded s.log ∧ CompletionsMatched s.log := by
  obtain ⟨s, hrun, hreach⟩ := exists_reach_of_isSome Copipe.step oneRendezvous
    (initCopipe fun _ => [0]) (by decide)
  obtain ⟨-, -, hcopies, hcompletions⟩ := copipe_rendezvous_exclusive hreach
  exact ⟨s, hreach, eq_of_map_runFrom Copipe.log hrun (by decide),
    eq_of_map_runFrom (fun s => s.mem 0) hrun (by decide), hcopies, hcompletions⟩

end Comsg.Proofs.Libcomsg
