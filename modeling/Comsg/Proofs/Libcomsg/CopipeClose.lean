import Comsg.Proofs.Libcomsg.CopipeLength

/-!
# `Comsg.Proofs.Libcomsg.CopipeClose`: a close does not end a waiting receive

`coport_close` takes the port from `COPORT_OPEN` only. While a receiver has its buffer in a
copipe, the status is `COPORT_BUSY`, `COPORT_READY` or `COPORT_DONE`
(`Stage.status_of_publishes`). So the closer stays in its loop (`close_spins`), and the
receiver never sees a closed port (`close_never_releases`).
-/

set_option autoImplicit false

namespace Comsg.Proofs.Libcomsg

open Comsg.Lib
open Comsg.Libcomsg

/-- The closer has not left the loop in which it takes the port. -/
def ClosesLoop (pc : CopipePc) : Prop := pc = .closeTest ∨ pc = .closeEnter

/-- After some steps of its own the closer `c` has stored `COPORT_CLOSING`, and the next step of
the receiver `r` returns `EPIPE`. -/
def ReleasesReceiver (s : Copipe) (c r : Nat) : Prop :=
  ∃ n s' s'', runFrom Copipe.step s (List.replicate n (.step c)) = some s' ∧
    s'.status = .coportClosing ∧ s'.step (.step r) = some s'' ∧
    s''.pc r = .returned (.err .epipe)

/-- The statuses in which the closer makes no progress. -/
def InRendezvous (status : CoportStatus) : Prop :=
  status = .coportReady ∨ status = .coportBusy ∨ status = .coportDone

section Closer
variable {s s' : Copipe} {c r : Nat}

/-- One step of the closer in its loop. -/
theorem close_spin (hst : InRendezvous s.status) (hc : ClosesLoop (s.pc c)) :
    s.step (.step c) = some (s.goto c .closeEnter) := by
  rcases hc with hc | hc
  · rcases hst with hst | hst | hst <;> simp [Copipe.step, Copipe.next, hc, hst]
  · have hsame : s.goto c .closeEnter = s := by
      rw [Copipe.goto, ← hc, Function.update_eq_self]
    rcases hst with hst | hst | hst <;>
      simp [Copipe.step, Copipe.next, Copipe.acquire, acquireCoportStatus, hc, hst, hsame]

/-- The closer alone never leaves its loop. -/
theorem close_spins (n : Nat) (hst : InRendezvous s.status) (hc : ClosesLoop (s.pc c)) :
    ∃ s', runFrom Copipe.step s (List.replicate n (.step c)) = some s' ∧ s'.status = s.status ∧
      ClosesLoop (s'.pc c) := by
  induction n generalizing s with
  | zero => exact ⟨s, rfl, rfl, hc⟩
  | succ n ih =>
    obtain ⟨s', hrun, hst', hc'⟩ := ih (s := s.goto c .closeEnter) hst (.inr goto_pc_self)
    refine ⟨s', ?_, hst', hc'⟩
    rw [List.replicate_succ, runFrom, close_spin hst hc]
    exact hrun

theorem not_releases_of_status (hst : InRendezvous s.status) (hc : ClosesLoop (s.pc c)) :
    ¬ReleasesReceiver s c r := by
  rintro ⟨n, s', s'', hrun, hclosing, -⟩
  obtain ⟨t, hrun', hsame, -⟩ := close_spins n hst hc
  cases hrun.symm.trans hrun'
  rw [hclosing] at hsame
  rcases hst with hst | hst | hst <;> simp [hst] at hsame

/-- The receive goes on, or it has returned a message. -/
def Receives (pc : CopipePc) : Prop :=
  Publishes pc ∨ ∃ n bytes, pc = .returned (.received n bytes)

/-- A step of the receiver itself. -/
theorem receives_of_does (hst : InRendezvous s.status) (hr : Publishes (s.pc r))
    (hdoes : Does s r s') : Receives (s'.pc r) := by
  cases hdoes with
  | call call hpc =>
    generalize s.pc r = pc at hr hpc
    cases pc <;> simp_all [Publishes, Rests]
  | retry => exact .inl hr
  | pipeError hclosed hpc =>
    -- `EPIPE` is for a port that is closing or closed.
    rcases hst with hst | hst | hst <;> simp [hst] at hclosed
  | take expected pc htakes heq =>
    rw [goto_pc_self]
    generalize s.pc r = old at hr htakes
    cases htakes <;> simp_all [Publishes, Receives]
  | complete buf n bytes hpc hbytes => exact .inr ⟨n, bytes, goto_pc_self⟩
  | ready | taken => simp [Receives, Publishes]
  -- Steps before the publication, of a sender, or of a closer.
  | publish buf hpc | untagged buf len hpc htag | tooLong buf len hpc
  | copy buf len bytes hpc hcopy | refused status error hpc | sent len hpc | closing hpc hst'
  | mark hpc | close hpc => simp [hpc, Publishes] at hr

/-- The receiver has its buffer in the port and the closer is in its loop, or the receive has
returned a message. -/
def Waiting (s : Copipe) (c r : Nat) : Prop :=
  (Publishes (s.pc r) ∧ ClosesLoop (s.pc c)) ∨ ∃ n bytes, s.pc r = .returned (.received n bytes)

theorem waiting_step {phase : Phase} {act : CopipeAct} (hstage : Stage s phase) (hne : c ≠ r)
    (h : Waiting s c r) (hact : act = .step c ∨ act = .step r) (hs : s.step act = some s') :
    Waiting s' c r := by
  have hdoes := does_of_step hs
  rcases hact with rfl | rfl <;> rcases h with ⟨hr, hc⟩ | ⟨n, bytes, hret⟩
  · -- The closer tests the status once more.
    rw [close_spin (hstage.status_of_publishes hr) hc] at hs
    cases hs
    exact .inl ⟨by rwa [goto_pc_of_ne hne.symm], .inr goto_pc_self⟩
  · exact .inr ⟨n, bytes, (pc_of_does hdoes hne.symm).trans hret⟩
  · -- The receiver tests the status once more, or it has met a sender before.
    rcases receives_of_does (hstage.status_of_publishes hr) hr hdoes with hr' | hret
    · exact .inl ⟨hr', by rwa [pc_of_does hdoes hne]⟩
    · exact .inr hret
  · simp [Copipe.step, Copipe.next, hret] at hs

end Closer

section Runs
variable {mem : Nat → List UInt8} {s : Copipe} {c r : Nat}

theorem waiting_runFrom (hne : c ≠ r) (acts : List CopipeAct) :
    ∀ {s s' : Copipe}, Reach Copipe.step anyAct (initCopipe mem) s → Waiting s c r →
      (∀ a ∈ acts, a = .step c ∨ a = .step r) → runFrom Copipe.step s acts = some s' →
      Waiting s' c r := by
  induction acts with
  | nil =>
    intro s s' _ h _ hrun
    cases hrun
    exact h
  | cons a acts ih =>
    intro s s' hreach h hacts hrun
    obtain ⟨t, hs, hrest⟩ := Option.bind_eq_some_iff.mp hrun
    obtain ⟨phase, -, hstage⟩ := stage_reach hreach
    have hwaiting : Waiting t c r := waiting_step hstage hne h (hacts a (by simp)) hs
    exact ih (.next a hreach trivial hs) hwaiting (fun b hb => hacts b (by simp [hb])) hrest

/-- A close on a copipe in which a receiver has its buffer never releases the receiver. The closer
stays in its loop, and the receive does not end with `EPIPE` however the two take turns. -/
theorem close_never_releases (h : Reach Copipe.step anyAct (initCopipe mem) s)
    (hr : Publishes (s.pc r)) (hc : ClosesLoop (s.pc c)) :
    ¬ReleasesReceiver s c r ∧
    (∀ n, ∃ s', runFrom Copipe.step s (List.replicate n (.step c)) = some s' ∧
      s'.status = s.status ∧ ClosesLoop (s'.pc c)) ∧
    ∀ acts s', (∀ a ∈ acts, a = .step c ∨ a = .step r) → runFrom Copipe.step s acts = some s' →
      s'.pc r ≠ .returned (.err .epipe) := by
  obtain ⟨phase, -, hstage⟩ := stage_reach h
  have hst := hstage.status_of_publishes hr
  have hne : c ≠ r := by
    -- A thread is in one call at a time.
    rintro rfl
    rcases hc with hc | hc <;> simp [hc, Publishes] at hr
  refine ⟨not_releases_of_status hst hc, fun n => close_spins n hst hc, ?_⟩
  intro acts s' hacts hrun
  rcases waiting_runFrom hne acts h (.inl ⟨hr, hc⟩) hacts hrun with ⟨hr', -⟩ | ⟨n, bytes, hret⟩
  · intro heq
    simp [heq, Publishes] at hr'
  · simp [hret]

end Runs

/-- Thread 0 waits in a receive of one byte, and thread 1 calls `coclose`. -/
def closeBlocked : List CopipeAct :=
  [.call 0 (.corecv ⟨true, 0, 1⟩ 1), .step 0, .step 0, .step 0, .call 1 .coclose]

theorem close_never_releases_one :
    ∃ s, Reach Copipe.step anyAct (initCopipe fun _ => [0]) s ∧ s.status = .coportReady ∧
      ¬ReleasesReceiver s 1 0 := by
  obtain ⟨s, hrun, hreach⟩ := exists_reach_of_isSome Copipe.step closeBlocked
    (initCopipe fun _ => [0]) (by decide)
  have hr : s.pc 0 = .recvWait ⟨true, 0, 1⟩ := eq_of_map_runFrom (fun s => s.pc 0) hrun (by decide)
  have hc : s.pc 1 = .closeTest := eq_of_map_runFrom (fun s => s.pc 1) hrun (by decide)
  have hst : s.status = .coportReady := eq_of_map_runFrom Copipe.status hrun (by decide)
  exact ⟨s, hreach, hst, (close_never_releases hreach (by simp [hr, Publishes]) (.inl hc)).1⟩

/-- The first receive on a fresh copipe waits with its buffer published, and the close of the
copipe does not release it. -/
theorem close_spins_on_ready :
    ∃ s, Reach Copipe.step anyAct (initCopipe fun _ => [0]) s ∧
      s.pc 0 = .recvWait ⟨true, 0, 1⟩ ∧ s.pc 1 = .closeTest ∧ ¬ReleasesReceiver s 1 0 := by
  obtain ⟨s, hrun, hreach⟩ := exists_reach_of_isSome Copipe.step closeBlocked
    (initCopipe fun _ => [0]) (by decide)
  have hc : s.pc 1 = .closeTest := eq_of_map_runFrom (fun s => s.pc 1) hrun (by decide)
  have hst : s.status = .coportReady := eq_of_map_runFrom Copipe.status hrun (by decide)
  exact ⟨s, hreach, eq_of_map_runFrom (fun s => s.pc 0) hrun (by decide), hc,
    not_releases_of_status (.inl hst) (.inl hc)⟩

end Comsg.Proofs.Libcomsg
