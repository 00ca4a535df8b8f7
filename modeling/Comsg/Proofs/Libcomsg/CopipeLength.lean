import Comsg.Proofs.Libcomsg.Copipe

/-!
# `Comsg.Proofs.Libcomsg.CopipeLength`: the length that a copipe receive reports

A receive returns what it finds in `info->length`. Only a send that copies stores there, but a
send that finds an untagged buffer also releases `COPORT_DONE`. The receive then returns the
length that `init_coport` has stored, or zero (`untagged_recv_returns`). When no send meets an
untagged buffer, a receive returns the length of the one send that was paired with it
(`recv_reports_send`).

The log says which events led to a completion. `Run.exists_appended` leads from an entry of the
log back to the step that made it, and `done_of_does` says what that step was.
-/

set_option autoImplicit false

namespace Comsg.Proofs.Libcomsg

open Comsg.Lib
open Comsg.Libcomsg

/-- A send that has taken the port finds a tagged buffer there. -/
def MeetsTagged (s : Copipe) (act : CopipeAct) : Prop :=
  ∀ t buf len, act = .step t → s.pc t = .sendHeld buf len → s.buf.tag = true

section Steps
variable {s s' : Copipe} {t u : Nat}

theorem sendStore_pc {status : CoportStatus} {reply : Reply} :
    (s.sendStore t status reply).pc = Function.update s.pc t (.returned reply) := by
  unfold Copipe.sendStore
  split <;> rfl

theorem sendStore_length {status : CoportStatus} {reply : Reply} :
    (s.sendStore t status reply).length = s.length := by
  unfold Copipe.sendStore
  split <;> rfl

/-- The log after the releasing store of a sender. -/
theorem sendStore_log (status : CoportStatus) (reply : Reply) :
    (s.sendStore t status reply).log = s.log ++
      if status = .coportDone then [CopipeEvent.done t] else [] := by
  unfold Copipe.sendStore
  split <;> simp [Copipe.note, Copipe.goto]

/-- An action makes at most one entry in the log. -/
theorem appends_of_does (h : Does s t s') : s'.log = s.log ∨ ∃ e, s'.log = s.log ++ [e] := by
  cases h with
  | publish | complete | copy => exact .inr ⟨_, rfl⟩
  | sent len hpc => exact .inr ⟨_, sendStore_log _ _⟩
  | refused status error hpc =>
    rw [sendStore_log]
    split
    · exact .inr ⟨_, rfl⟩
    · exact .inl (List.append_nil _)
  | _ => exact .inl rfl

/-- The release of `COPORT_DONE` is the last step of a send that copied, or of one that found an
untagged buffer. -/
theorem done_of_does (h : Does s t s') (hlog : s'.log = s.log ++ [CopipeEvent.done u]) :
    u = t ∧ ((∃ len, s.pc t = .sendCopied len ∧ s'.pc t = .returned (.sent len)) ∨
      ∃ error, s.pc t = .sendRelease .coportDone error) := by
  cases h with
  | sent len hpc =>
    rw [sendStore_log] at hlog
    have heq : u = t := by simpa using hlog.symm
    refine ⟨heq, .inl ⟨len, hpc, ?_⟩⟩
    rw [sendStore_pc, Function.update_self]
  | refused status error hpc =>
    rw [sendStore_log] at hlog
    split at hlog
    · rename_i hdone
      have heq : u = t := by simpa using hlog.symm
      exact ⟨heq, .inr ⟨error, hdone ▸ hpc⟩⟩
    · simp at hlog
  | _ => simp [Copipe.note, Copipe.goto] at hlog

theorem Takes.leads {c pc : CopipePc} {expected : CoportStatus} (h : Takes c expected pc) :
    (∃ buf, pc = .recvHeld buf ∨ pc = .recvTake buf) ∨ (∃ buf len, pc = .sendHeld buf len) ∨
      pc = .closeHeld := by
  cases h with
  | recv buf => exact .inl ⟨buf, .inl rfl⟩
  | done buf => exact .inl ⟨buf, .inr rfl⟩
  | send buf len => exact .inr (.inl ⟨buf, len, rfl⟩)
  | close => exact .inr (.inr rfl)

/-- A receive returns with the length that it took. -/
theorem recvTaken_of_received {n : SizeT} {bytes : List UInt8} (h : Does s t s')
    (hold : ¬Rests (s.pc t)) (hret : s'.pc t = .returned (.received n bytes)) :
    ∃ buf, s.pc t = .recvTaken buf n ∧ bytes = (s.mem buf.obj).take n.toNat := by
  cases h with
  | call call hpc => exact absurd hpc hold
  | retry => simp [hret, Rests] at hold
  | take expected pc htakes hst =>
    rw [goto_pc_self] at hret
    have hleads := htakes.leads
    simp [hret] at hleads
  | complete buf m data hpc hbytes =>
    simp only [Copipe.note, goto_pc_self, CopipePc.returned.injEq, Reply.received.injEq] at hret
    obtain ⟨rfl, rfl⟩ := hret
    exact ⟨buf, hpc, hbytes⟩
  | refused | sent => simp [sendStore_pc] at hret
  | _ => simp [Copipe.note] at hret

/-- Only a copy and a receive that takes the message store a length. -/
theorem length_of_does (h : Does s t s') :
    s'.length = s.length ∨ (∃ buf, s.pc t = .recvTake buf) ∨
    ∃ buf len, s.pc t = .sendHeld buf len ∧ s'.length = len ∧ s'.pc t = .sendCopied len := by
  cases h with
  | taken buf hpc => exact .inr (.inl ⟨buf, hpc⟩)
  | copy buf len bytes hpc hcopy => exact .inr (.inr ⟨buf, len, hpc, rfl, goto_pc_self⟩)
  | refused | sent => exact .inl sendStore_length
  | _ => exact .inl rfl

/-- An action of a thread moves no other one. -/
theorem pc_of_does (h : Does s t s') (hu : u ≠ t) : s'.pc u = s.pc u := by
  cases h with
  | retry => rfl
  | refused | sent =>
    rw [sendStore_pc]
    exact Function.update_of_ne hu ..
  | _ => exact goto_pc_of_ne hu

/-- A call begins before its first acquisition. -/
theorem enter_ne {pc : CopipePc} (call : CopipeCall) (hpc : ¬Passive pc) :
    Copipe.enter call ≠ pc := by
  rintro rfl
  exact hpc (passive_enter call)

/-- How a thread comes to the release of a send that copied. -/
theorem sendCopied_of_does {len : SizeT} (h : Does s t s') (hpc : s'.pc t = .sendCopied len) :
    s' = s ∨ s'.length = len := by
  cases h with
  | call call hrests =>
    rw [goto_pc_self] at hpc
    exact absurd hpc (enter_ne call (by simp [Passive]))
  | retry => exact .inl rfl
  | take expected pc htakes hst =>
    rw [goto_pc_self] at hpc
    have hleads := htakes.leads
    simp [hpc] at hleads
  | copy buf len' bytes hheld hcopy =>
    simp only [Copipe.note, goto_pc_self, CopipePc.sendCopied.injEq] at hpc
    exact .inr hpc
  | refused | sent => simp [sendStore_pc] at hpc
  | _ => simp [Copipe.note] at hpc

/-- How a thread comes to the release of `COPORT_DONE` without a copy. -/
theorem sendRelease_of_does {error : Errno} (h : Does s t s')
    (hpc : s'.pc t = .sendRelease .coportDone error) :
    s' = s ∨ (s.buf.tag = false ∧ ∃ buf len, s.pc t = .sendHeld buf len) := by
  cases h with
  | call call hrests =>
    rw [goto_pc_self] at hpc
    exact absurd hpc (enter_ne call (by simp [Passive]))
  | retry => exact .inl rfl
  | take expected pc htakes hst =>
    rw [goto_pc_self] at hpc
    have hleads := htakes.leads
    simp [hpc] at hleads
  | untagged buf len hheld htag => exact .inr ⟨htag, buf, len, hheld⟩
  | refused | sent => simp [sendStore_pc] at hpc
  | _ => simp [Copipe.note] at hpc

end Steps

/-! ### Runs -/

/-- What the two releases of a send rest on: a send that copied has stored its length, and no
send releases `COPORT_DONE` without a copy. -/
structure Lengths (s : Copipe) : Prop where
  copied : ∀ t len, s.pc t = .sendCopied len → s.length = len
  tagged : ∀ t error, s.pc t ≠ .sendRelease .coportDone error

section Runs
variable {mem : Nat → List UInt8} {s s' : Copipe} {acts : List CopipeAct}

/-- The length stays while a send that copied has not released. -/
theorem Stage.length_of_does {phase : Phase} {t u : Nat} {len : SizeT} (h : Stage s phase)
    (hdoes : Does s t s') (hu : u ≠ t) (hpc : s.pc u = .sendCopied len) :
    s'.length = s.length := by
  -- The thread that stores a length is in the middle of a rendezvous too, and there is only one.
  obtain ⟨r, buf, data, -, -, -, -, hothers⟩ := h.of_sendCopied hpc
  rcases Libcomsg.length_of_does hdoes with heq | ⟨buf, htake⟩ | ⟨msg, n, hheld, -, -⟩
  · exact heq
  · obtain ⟨-, -, -, -, -, hothers'⟩ := h.of_recvTake htake
    have hpassive := hothers' u hu
    simp [hpc, Passive] at hpassive
  · obtain ⟨r', -, -, -, hwait, hothers'⟩ := h.of_sends (t := t) (by simp [hheld, Sends])
    have hpassive := hothers' u (by rintro rfl; simp [hwait] at hpc) hu
    simp [hpc, Passive] at hpassive

theorem Lengths.step {phase : Phase} {act : CopipeAct} (h : Lengths s) (hstage : Stage s phase)
    (hok : MeetsTagged s act) (hs : s.step act = some s') : Lengths s' := by
  have hdoes := does_of_step hs
  constructor
  · intro u len hpc
    by_cases hu : u = actor act
    · subst hu
      rcases sendCopied_of_does hdoes hpc with rfl | hlen
      · exact h.copied _ len hpc
      · exact hlen
    · rw [pc_of_does hdoes hu] at hpc
      rw [hstage.length_of_does hdoes hu hpc]
      exact h.copied u len hpc
  · intro u error hpc
    by_cases hu : u = actor act
    · subst hu
      rcases sendRelease_of_does hdoes hpc with rfl | ⟨htag, buf, len, hheld⟩
      · exact h.tagged _ error hpc
      · have hact := act_of_not_rests hs (by simp [hheld, Rests])
        simp [hok _ buf len hact hheld] at htag
    · rw [pc_of_does hdoes hu] at hpc
      exact h.tagged u error hpc

theorem lengths_of_reach (h : Reach Copipe.step MeetsTagged (initCopipe mem) s) : Lengths s := by
  have hinit : Lengths (initCopipe mem) := by
    constructor
    · rintro t len ⟨⟩
    · rintro t error ⟨⟩
  refine h.invariant hinit ?_
  · intro s act s' hreach hinv hok hs
    obtain ⟨phase, -, hstage⟩ := stage_reach (hreach.mono fun _ _ _ => trivial)
    exact hinv.step hstage hok hs

/-- The release that a receiver has seen was that of a send which returned the length of its
message. -/
theorem exists_sent (h : Run Copipe.step MeetsTagged (initCopipe mem) acts s)
    {a b : List CopipeEvent} {t : Nat} (hlog : s.log = a ++ CopipeEvent.done t :: b) :
    ∃ before u u' r buf data len a', Run.At Copipe.step MeetsTagged (initCopipe mem) acts before
      (.step t) u u' ∧ u.log = a ∧
      a = a' ++ [CopipeEvent.publish r buf, CopipeEvent.copy t buf data] ∧
      u'.pc t = .returned (.sent len) ∧ len.toNat = data.length := by
  -- The step that made the entry `done` in the log.
  obtain ⟨before, act, u, u', hat, hold, hnew⟩ := h.exists_appended Copipe.log rfl
    (fun s act s' _ hs => appends_of_does (does_of_step hs)) hlog
  have hreach := hat.run.reach
  rw [← hold] at hnew
  obtain ⟨rfl, ⟨len, hpc, hret⟩ | ⟨error, hpc⟩⟩ := done_of_does (does_of_step hat.step) hnew
  · -- What the receiver reads later is what this send has stored.
    obtain ⟨phase, hrun, hstage⟩ := stage_reach (hreach.mono fun _ _ _ => trivial)
    obtain ⟨r, buf, data, rfl, -, -, hdata, -⟩ := hstage.of_sendCopied hpc
    obtain ⟨a', ha'⟩ := log_of_copied hrun
    have hlen : u.length = len := (lengths_of_reach hreach).copied _ len hpc
    have hact : act = .step (actor act) := act_of_not_rests hat.step (by simp [hpc, Rests])
    refine ⟨before, u, u', r, buf, data, len, a', hact ▸ hat, hold, hold ▸ ha', hret, ?_⟩
    rw [← hlen]
    exact (hdata data rfl).1
  · exact absurd hpc ((lengths_of_reach hreach).tagged _ error)

/-- The receive of `r` that returns `n` and `bytes` after the actions `before`, in state `s`, was
paired with one send. It copied `bytes` into the buffer since it was published, and returned `n`. -/
def ReportsSend (ok : Copipe → CopipeAct → Prop) (mem : Nat → List UInt8)
    (before : List CopipeAct) (s : Copipe) (r : Nat) (n : SizeT) (bytes : List UInt8) : Prop :=
  ∃ a buf t before' u u', s.log = a ++ [.publish r buf, .copy t buf bytes, .done t] ∧
    n.toNat = bytes.length ∧
    Run.At Copipe.step ok (initCopipe mem) before before' (.step t) u u' ∧
    u.log = a ++ [.publish r buf, .copy t buf bytes] ∧ u'.pc t = .returned (.sent n)

/-- When no send meets an untagged buffer, a receive on a copipe returns the length of the one
send that copied into its buffer since it was published. -/
theorem recv_reports_send {before : List CopipeAct} {r : Nat} {n : SizeT} {bytes : List UInt8}
    (h : Run.At Copipe.step MeetsTagged (initCopipe mem) acts before (.step r) s s')
    (hret : s'.pc r = .returned (.received n bytes)) :
    ReportsSend MeetsTagged mem before s r n bytes := by
  have hold : ¬Rests (s.pc r) := by
    -- A thread that rests has no step.
    intro hrests
    have hs := h.step
    simp only [Copipe.step, Copipe.next] at hs
    generalize s.pc r = c at hrests hs
    cases c <;> simp_all [Rests]
  have hdoes : Does s r s' := does_of_step h.step
  obtain ⟨buf, hpc, rfl⟩ := recvTaken_of_received hdoes hold hret
  obtain ⟨phase, hrun, hstage⟩ := stage_reach (h.run.reach.mono fun _ _ _ => trivial)
  obtain ⟨t, data, rfl, hdata, -⟩ := hstage.of_recvTaken hpc
  rcases log_of_released hrun with ⟨rfl, a, hlog⟩ | ⟨d, rfl, a, hlog⟩
  · -- A release without a copy. The step that made it was that of a send that copied.
    obtain ⟨before', u, u', r', buf', d, len, a', -, -, heq, -⟩ :=
      exists_sent h.run (a := a ++ [CopipeEvent.publish r buf]) (b := []) (t := t) (by simp [hlog])
    have hlast := congrArg List.getLast? heq
    simp at hlast
  · -- The copy in the log of the receiver and that of the send are the same entry.
    obtain ⟨hn, hmem⟩ := hdata d rfl
    obtain ⟨before', u, u', r', buf', d', len, a', hat, hold, heq, hsent, hlen⟩ :=
      exists_sent h.run (a := a ++ [CopipeEvent.publish r buf, CopipeEvent.copy t buf d])
        (b := []) (t := t) (by simp [hlog])
    obtain ⟨rfl, hcopy⟩ := List.append_inj' heq rfl
    cases hcopy
    have hbytes : (s.mem buf.obj).take n.toNat = d := by rw [hn, hmem]
    have hlen' : len = n := BitVec.eq_of_toNat_eq (hlen.trans hn.symm)
    subst hlen'
    rw [hbytes]
    exact ⟨a, buf, t, before', u, u', hlog, hn, hat, hold, hsent⟩

end Runs

/-- `MeetsTagged` as a test. -/
def meetsTagged (s : Copipe) : CopipeAct → Bool
  | .call _ _ => true
  | .step t =>
    match s.pc t with
    | .sendHeld _ _ => s.buf.tag
    | _ => true

theorem meetsTagged_sound (s : Copipe) (act : CopipeAct) (h : meetsTagged s act = true) :
    MeetsTagged s act := by
  rintro t buf len rfl hpc
  simpa [meetsTagged, hpc] using h

/-- The last step of `oneRendezvous` returns the byte that was sent. -/
theorem recv_reports_send_one :
    ∃ s s' : Copipe, s'.pc 0 = .returned (.received 1 [7]) ∧
      ReportsSend MeetsTagged (fun _ => [0]) (oneRendezvous.take 10) s 0 1 [7] := by
  obtain ⟨s, s', hat, -, hlast⟩ := exists_at_of_checkAll Copipe.step
    (initCopipe fun _ => [0]) meetsTagged_sound (oneRendezvous.take 10) (.step 0) (by decide)
  have hret : s'.pc 0 = .returned (.received 1 [7]) :=
    eq_of_map_runFrom (fun s => s.pc 0) hlast (by decide)
  exact ⟨s, s', hret, recv_reports_send hat hret⟩

/-- A receive of thread 0 into an untagged buffer of 16 bytes, and the send of thread 1 that
refuses it. -/
def untaggedRendezvous : List CopipeAct :=
  [.call 0 (.corecv ⟨false, 0, 16⟩ 16), .call 1 (.cosend [7] 1), .step 0, .step 0, .step 0, .step 1,
    .step 1, .step 1, .step 0, .step 0]

/-- On a fresh copipe the send of thread 1 fails with `EPROT`, and the receive of thread 0 returns
16, the length that `init_coport` stored. No send has copied. -/
theorem untagged_recv_returns :
    ∃ s s' : Copipe, Run.At Copipe.step anyAct (initCopipe fun _ => List.replicate 16 0)
        (untaggedRendezvous ++ [.step 0]) untaggedRendezvous (.step 0) s s' ∧
      s'.pc 1 = .returned (.err .eprot) ∧
      s'.pc 0 = .returned (.received 16 (List.replicate 16 0)) ∧
      ¬ReportsSend anyAct (fun _ => List.replicate 16 0) untaggedRendezvous s 0 16
        (List.replicate 16 0) := by
  obtain ⟨s, s', hat, hrun, hlast⟩ := exists_at_of_checkAll Copipe.step
    (initCopipe fun _ => List.replicate 16 0)
    (fun _ _ _ => trivial : ∀ (s : Copipe) (a : CopipeAct), true = true → anyAct s a)
    untaggedRendezvous (.step 0) (by decide)
  refine ⟨s, s', hat, eq_of_map_runFrom (fun s => s.pc 1) hlast (by decide),
    eq_of_map_runFrom (fun s => s.pc 0) hlast (by decide), ?_⟩
  have hlog : s.log = [.publish 0 ⟨false, 0, 16⟩, .done 1] :=
    eq_of_map_runFrom Copipe.log hrun (by decide)
  rintro ⟨a, buf, t, before', u, u', heq, -⟩
  have hlen := congrArg List.length (hlog.symm.trans heq)
  simp at hlen

end Comsg.Proofs.Libcomsg
