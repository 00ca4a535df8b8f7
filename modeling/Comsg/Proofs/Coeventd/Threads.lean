import Comsg.Coeventd.Requests
import Comsg.Proofs.Coeventd.Effect

/-!
# `Comsg.Proofs.Coeventd.Threads`: what a thread of coeventd does

`Move` lists what one step of a thread does, and `move_of_step` shows that there is nothing else.
Most steps work on one event only. What they put into its queue is `QueuedBy`, and what they store
in its word is -1, 0 or 1 (`word_reach`).
-/

set_option autoImplicit false

namespace Comsg.Proofs.Coeventd

open Comsg.Lib
open Comsg.Coeventd

/-- The function that a registration has filled in, or is about to. -/
def pointer : Pc → Option Ptr
  | .fill func                   => some func
  | .lock (.provide func)        => some func
  | .body (.provide func)        => some func
  | .unlock (.provide func)      => some func
  | .release (.provide func) _   => some func
  | .replied (.func func)        => some func
  | _                            => none

/-- The entry of the table that a registration has taken. -/
def index : Pc → Option Nat
  | .check i   => some i
  | .extend i  => some i
  | .address i => some i
  | pc         => (pointer pc).map Ptr.idx

/-- The entry that a registration has taken and not filled in. -/
def pending : Pc → Option Nat
  | .check i   => some i
  | .extend i  => some i
  | .address i => some i
  | .fill func => some func.idx
  | _          => none

/-- A callback that is in the queue of `p` after a step from `pc`. -/
inductive QueuedBy (s : Daemon) (a : Action) (p : Nat) (pc : Pc) : Cocallback → Prop
  | old (ccb : Cocallback) (h : ccb ∈ (s.procTable p).callbacks) : QueuedBy s a p pc ccb
  | record : QueuedBy s a p pc ⟨s.serial, s.providerDeath, .provided []⟩
  | client (pid : Nat) (tag : Bool) (coevent : EventTarget) (func : Ptr) (len : Nat) (data : Ptr)
      (h : a = .request pid (.ccbInstall tag coevent true func len data)) :
      QueuedBy s a p pc ⟨s.serial, func, .data len data⟩
  | link (func : Ptr) (ccb : Cocallback) (hpc : pc = .body (.provide func))
      (h : ccb ∈ (s.procTable p).callbacks) (hfunc : ccb.func = s.providerDeath) :
      QueuedBy s a p pc (linked s ccb func)

/-- A word that is stored in an event. -/
def IsWord (word : Int) : Prop := word = -1 ∨ word = 0 ∨ word = 1

/-- What one step of a thread does that works on the event of `p`. -/
inductive Move (s : Daemon) (a : Action) (p : Nat) : Pc → Daemon → Pc → Prop
  | enter (alive monitored : Nat → Bool) (memory : Ptr → CocallbackFunc)
      (chains : Ptr → List Ptr) (pc' : Pc) (hindex : index pc' = none) :
      Move s a p .entry
        { s with alive := alive, monitored := monitored, memory := memory, chains := chains } pc'
  | event (pc pc' : Pc) (e : Coevent) (monitored : Nat → Bool) (serial : Nat)
      (added : Nat → List Nat)
      (hword : IsWord e.inProgress ∨ e.inProgress = (s.procTable p).inProgress)
      (hqueue : ∀ ccb ∈ e.callbacks, QueuedBy s a p pc ccb) (hpc : pending pc = none)
      (hpc' : pending pc' = none) (hpointer : pointer pc' = pointer pc) :
      Move s a p pc { s with
        procTable := Function.update s.procTable p e
        monitored := monitored
        serial := serial
        added := added } pc'
  | gone (pc : Pc) (fate : Fate) : Move s a p pc { s with fate := fate } .ended
  | fetchAdd : Move s a p .fetchAdd { s with funcs := s.funcs ++ [zeroFunc] }
      (.check s.funcs.length)
  | full (i : Nat) : Move s a p (.check i) s (.extend i)
  | fits (i : Nat) (h : i < s.tblLen) : Move s a p (.check i) s (.address i)
  | extended (i : Nat) (h : s.funcs.length < s.tblLen) : Move s a p (.extend i) s (.address i)
  | extend (i pid newBase : Nat) (scb : Scb) (flags : Flags)
      (ha : a = .request pid (.ccbRegister scb flags newBase))
      (h : s.tblLen ≤ s.funcs.length) :
      Move s a p (.extend i) { s with base := newBase, tblLen := s.tblLen + baseTblLen }
        (.address i)
  | address (i : Nat) (h : i < s.tblLen) : Move s a p (.address i) s (.fill ⟨s.base, i⟩)
  | fill (func : Ptr) (pid newBase : Nat) (scb : Scb) (flags : Flags)
      (ha : a = .request pid (.ccbRegister scb flags newBase)) :
      Move s a p (.fill func) (s.fillFunc func ⟨scb, pid, flags⟩) (.lock (.provide func))
  | execute (ccb : Cocallback) (handled : Nat → List Handled) (fate : Fate) (pc' : Pc)
      (hindex : index pc' = none) :
      Move s a p (.execute ccb)
        { (s.executeCocallback ccb).1 with handled := handled, fate := fate } pc'

section Moves
variable {s s' : Daemon} {a : Action} {p : Nat} {pc pc' : Pc} {sec : Section}

-- Unfolded in every proof below, so their equations are made here once.
attribute [local simp] Daemon.threadStep Daemon.registerStep Daemon.critical Daemon.enter

/-- A step that leaves the shared data alone. -/
theorem move_same (hpc : pending pc = none) (hpc' : pending pc' = none)
    (hpointer : pointer pc' = pointer pc) : Move s a p pc s pc' := by
  have hsame : Move s a p pc { s with
      procTable := Function.update s.procTable p (s.procTable p) } pc' :=
    .event pc pc' (s.procTable p) s.monitored s.serial s.added (.inr rfl)
      (fun ccb h => .old ccb h) hpc hpc' hpointer
  rwa [Function.update_eq_self] at hsame

/-- A step that stores a word in the event. -/
theorem move_word {word : Int} (hword : IsWord word) (hpc : pending pc = none)
    (hpc' : pending pc' = none) (hpointer : pointer pc' = pointer pc) :
    Move s a p pc (s.setEvent p { s.procTable p with inProgress := word }) pc' :=
  .event pc pc' _ s.monitored s.serial s.added (.inl hword) (fun ccb h => .old ccb h) hpc
    hpc' hpointer

theorem move_halt (stop : Stop) : Move s a p pc (s.halt stop) .ended := by
  cases stop with
  | spins => exact .gone pc s.fate
  | faults => exact .gone pc .faulted
  | aborts => exact .gone pc .aborted

theorem move_enter (h : s.enter a = some (s', pc')) : Move s a p .entry s' pc' := by
  have hsame (pc' : Pc) (hindex : index pc' = none) : Move s a p .entry s pc' :=
    .enter s.alive s.monitored s.memory s.chains pc' hindex
  cases a with
  | request pid r =>
    simp only [Daemon.enter] at h
    split at h
    · cases r with
      | colisten event subject =>
        cases event with
        | processDeath =>
          simp only at h
          split at h <;> cases h <;> exact hsame _ rfl
        | other value =>
          cases h
          exact hsame _ rfl
      | ccbRegister scb flags newBase =>
        simp only at h
        split at h <;> cases h <;> exact hsame _ rfl
      | ccbInstall tag coevent funcTag func len data =>
        simp only at h
        split at h <;> cases h <;> exact hsame _ rfl
    · cases h
  | store ptr func chain =>
    cases h
    exact .enter s.alive s.monitored _ _ .ended rfl
  | die pid =>
    simp only [Daemon.enter] at h
    split at h <;> cases h
    exact .enter _ s.monitored s.memory s.chains .ended rfl
  | report pid =>
    simp only [Daemon.enter] at h
    split at h <;> cases h
    exact .enter s.alive _ s.memory s.chains .begin rfl

/-- A callback is queued on an event whose lock is held. -/
theorem move_queue {func : Ptr} {args : CocallbackArgs} {t : Daemon} {e : Coevent}
    (hq : s.queueCocallback p (s.procTable p) func args = .ok (t, e))
    (hnew : QueuedBy s a p (.body sec) ⟨s.serial, func, args⟩) :
    Move s a p (.body sec) (t.setEvent p e) (.unlock sec) := by
  unfold Daemon.queueCocallback Coevent.addCocallback at hq
  split at hq
  · cases hq
  · cases hq
    refine .event (.body sec) (.unlock sec) _ s.monitored _ _ (.inr rfl) ?_ rfl rfl ?_
    · intro ccb hmem
      rcases List.mem_append.mp hmem with hmem | hmem
      · exact .old ccb hmem
      · rw [List.mem_singleton.mp hmem]
        exact hnew
    · cases sec <;> rfl

theorem move_critical (h : s.critical a p sec = .ok s') :
    Move s a p (.body sec) s' (.unlock sec) := by
  cases sec with
  | monitor =>
    simp only [Daemon.critical] at h
    split at h
    · cases hq : s.queueCocallback p (s.procTable p) s.providerDeath (.provided []) with
      | error stop =>
        rw [hq] at h
        cases h
      | ok x =>
        rw [hq] at h
        cases h
        exact move_queue hq .record
    · cases h
      exact move_same rfl rfl rfl
  | provide func =>
    simp only [Daemon.critical] at h
    split at h
    · cases h
    · rename_i ccb rest hqueue
      split at h
      · cases h
      · rename_i hfunc
        cases h
        refine .event (.body (.provide func)) (.unlock (.provide func)) _ s.monitored s.serial
          s.added (.inr rfl) ?_ rfl rfl rfl
        intro c hmem
        have hold : ∀ c ∈ ccb :: rest, c ∈ (s.procTable p).callbacks := by
          rw [hqueue]
          exact fun _ => id
        -- The record of the provider is replaced, and the rest of the queue stays.
        rcases List.mem_cons.mp hmem with rfl | hmem
        · exact .link func ccb rfl (hold ccb List.mem_cons_self) (not_not.mp hfunc)
        · exact .old c (hold c (List.mem_cons_of_mem ccb hmem))
  | install =>
    simp only [Daemon.critical] at h
    split at h
    · rename_i pid tag coevent funcTag func len data
      cases hq : s.queueCocallback p (s.procTable p) func (.data len data) with
      | error stop =>
        rw [hq] at h
        cases h
      | ok x =>
        obtain ⟨t, e⟩ := x
        rw [hq] at h
        simp only [bind, Except.bind] at h
        split at h
        · cases h
        · rename_i hset
          cases h
          -- A function without a tag faults before the callback is queued.
          obtain rfl : funcTag = true := by
            rw [not_or, not_or] at hset
            simpa using hset.2.2
          exact move_queue hq (.client pid tag coevent func len data rfl)
    · cases h

theorem move_register {pid newBase : Nat} {scb : Scb} {flags : Flags}
    (ha : a = .request pid (.ccbRegister scb flags newBase))
    (h : s.registerStep pid scb flags newBase pc = some (s', pc')) : Move s a p pc s' pc' := by
  cases pc with
  | fetchAdd =>
    simp only [Daemon.registerStep] at h
    split at h <;> cases h
    · exact move_same rfl rfl rfl
    · exact .fetchAdd
  | check i =>
    simp only [Daemon.registerStep] at h
    split at h <;> cases h
    · exact .full i
    · rename_i hlt
      exact .fits i (Nat.not_le.mp hlt)
  | extend i =>
    simp only [Daemon.registerStep] at h
    split at h <;> cases h
    · rename_i hlt
      exact .extended i hlt
    · rename_i hge
      exact .extend i pid newBase scb flags ha (Nat.not_lt.mp hge)
  | address i =>
    simp only [Daemon.registerStep] at h
    split at h <;> cases h
    · rename_i hlt
      exact .address i hlt
    · exact move_halt .faults
  | fill func =>
    cases h
    exact .fill func pid newBase scb flags ha
  | _ => cases h

theorem move_lock (h : s.threadStep a p (.lock sec) = some (s', pc')) :
    Move s a p (.lock sec) s' pc' := by
  simp only [Daemon.threadStep, Coevent.lockCoevent] at h
  -- The exchange succeeds on 0, and otherwise the thread stays where it is.
  split at h <;> rename_i hlock <;> split at hlock <;> cases hlock <;> cases h
  · refine move_word (.inr (.inr rfl)) rfl rfl ?_
    cases sec <;> rfl
  · exact move_same rfl rfl rfl

theorem move_release {seen : Int} (h : s.threadStep a p (.release sec seen) = some (s', pc')) :
    Move s a p (.release sec seen) s' pc' := by
  simp only [Daemon.threadStep] at h
  split at h <;> cases h
  · refine move_word (.inr (.inl rfl)) rfl ?_ ?_ <;> cases sec <;> rfl
  · exact move_halt .aborts

theorem move_next (h : s.threadStep a p .next = some (s', pc')) : Move s a p .next s' pc' := by
  simp only [Daemon.threadStep, Coevent.getNextCocallback] at h
  split at h <;> rename_i hnext <;> split at hnext
  · cases h
    exact move_same rfl rfl rfl
  · split at hnext <;> cases hnext
    cases h
    exact move_same rfl rfl rfl
  · cases hnext
  · split at hnext <;> cases hnext
    rename_i ccb _ _ rest hqueue
    cases h
    refine .event .next (.execute ccb) _ s.monitored s.serial s.added (.inr rfl) ?_ rfl
      rfl rfl
    intro c hmem
    refine .old c ?_
    rw [hqueue]
    exact List.mem_cons_of_mem ccb hmem

/-- Every step of a thread is a move. -/
theorem move_of_step (h : s.threadStep a p pc = some (s', pc')) : Move s a p pc s' pc' := by
  cases pc with
  | entry => exact move_enter h
  | allocate =>
    simp only [Daemon.threadStep] at h
    split at h <;> cases h
    · exact move_word (.inr (.inr rfl)) rfl rfl rfl
    · exact move_same rfl rfl rfl
  | reallocate =>
    simp only [Daemon.threadStep] at h
    split at h
    · cases h
      exact move_word (.inr (.inr rfl)) rfl rfl rfl
    · simp only [Daemon.refused] at h
      split at h <;> cases h
      · exact move_halt .faults
      · exact move_same rfl rfl rfl
  | setUp fired =>
    simp only [Daemon.threadStep] at h
    split at h <;> cases h
    · exact .event (.setUp fired) .publish _ _ s.serial s.added (.inr rfl) (by simp) rfl rfl
        rfl
    · exact move_same rfl rfl rfl
  | publish =>
    simp only [Daemon.threadStep, Daemon.opened] at h
    split at h <;> cases h <;> exact move_word (.inr (.inl rfl)) rfl rfl rfl
  | lock sec => exact move_lock h
  | body sec =>
    simp only [Daemon.threadStep] at h
    split at h
    · rename_i hbody
      cases h
      exact move_critical hbody
    · cases h
      exact move_halt _
  | unlock sec =>
    simp only [Daemon.threadStep] at h
    split at h <;> cases h
    · exact move_halt .aborts
    · refine move_same rfl rfl ?_
      cases sec <;> rfl
  | release sec seen => exact move_release h
  | begin =>
    cases h
    exact move_word (.inr (.inr rfl)) rfl rfl rfl
  | next => exact move_next h
  | execute ccb =>
    simp only [Daemon.threadStep, Daemon.executeStep] at h
    split at h <;> cases h
    -- A callback may end coeventd.
    · exact .execute ccb _ .terminated .ended rfl
    · exact .execute ccb _ (s.executeCocallback ccb).1.fate .next rfl
  | finish =>
    cases h
    exact move_word (.inl rfl) rfl rfl rfl
  | replied reply => cases h
  | ended => cases h
  | fetchAdd | check | extend | address | fill =>
    simp only [Daemon.threadStep] at h
    split at h
    · exact move_register rfl h
    · cases h

end Moves

section Runs
variable {s s' : Daemons} {act : PoolAct Action}

/-- What a step of coeventd does. -/
theorem requestStep_cases (h : requestStep s act = some s') :
    (∃ a, act = .arrive a ∧ s.shared.Held a ∧
      s' = { s with threads := s.threads ++ [(a, .entry)] }) ∨
    ∃ r a pc shared pc', act = .advance r ∧ s.threads[r]? = some (a, pc) ∧
      Move s.shared a a.event pc shared pc' ∧ s' = ⟨shared, s.threads.set r (a, pc')⟩ := by
  cases act with
  | arrive a =>
    simp only [requestStep] at h
    split at h
    · rename_i hheld
      cases h
      exact .inl ⟨a, rfl, hheld, rfl⟩
    · cases h
  | advance q =>
    have h : poolStep .entry Daemon.advance s (.advance q) = some s' := h
    rcases poolStep_cases h with ⟨a, hact, -⟩ | ⟨r, a, pc, shared, pc', hact, hr, hadv, rfl⟩
    · cases hact
    · cases hact
      simp only [Daemon.advance] at hadv
      split at hadv
      · cases hadv
      · exact .inr ⟨q, a, pc, shared, pc', rfl, hr, move_of_step hadv, rfl⟩

theorem word_move {s s' : Daemon} {a : Action} {p : Nat} {pc pc' : Pc}
    (h : ∀ q, IsWord (s.procTable q).inProgress) (hm : Move s a p pc s' pc') :
    ∀ q, IsWord (s'.procTable q).inProgress := by
  cases hm with
  | event pc pc' e monitored serial added hword hqueue hpc hpc' hpointer =>
    refine (Function.forall_update_iff s.procTable fun _ e => IsWord e.inProgress).mpr
      ⟨?_, fun q _ => h q⟩
    rcases hword with hword | hsame
    · exact hword
    · rw [hsame]
      exact h p
  | fill func pid newBase scb flags ha =>
    unfold Daemon.fillFunc
    split <;> exact h
  | execute ccb handled fate pc' hindex =>
    obtain ⟨funcs, memory, heq, -⟩ := executeCocallback_eq s ccb
    rw [heq]
    exact h
  | _ => exact h

/-- The word of an event is -1, 0 or 1. -/
theorem word_reach {mypid base : Nat} {memory : Ptr → CocallbackFunc} {chains : Ptr → List Ptr}
    (h : Reach requestStep anyAct ⟨initDaemon mypid base memory chains, []⟩ s) (p : Nat) :
    IsWord (s.shared.procTable p).inProgress := by
  revert p
  induction h with
  | init => exact fun p => .inr (.inl rfl)
  | next act _ _ hs ih =>
    rcases requestStep_cases hs with ⟨a, -, -, rfl⟩ | ⟨r, a, pc, shared, pc', -, -, hm, rfl⟩
    · exact ih
    · exact word_move ih hm

end Runs

end Comsg.Proofs.Coeventd
