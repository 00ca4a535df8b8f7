import Comsg.Libcocall.Endpoint
import Mathlib.Tactic.SplitIfs

/-!
# `Comsg.Proofs.Libcocall.Endpoint`: the start of worker threads

`spawn_endpoints` starts the threads of a daemon one after the other, and waits for each of them.

* `resultsOk_reach`: what `start_endpoint_thread` returns is right in every run. It returns `true`
  only when it has seen `scb_cap`, and `false` only for a thread that is gone.
* `plainOk_step`: in a run without a failure the mutex and the place of the worker follow from the
  place of the starting thread (`PhaseOk`). It owns the mutex until it waits, so no signal is lost.
* `start_endpoints`: both, with a bound on the number of steps.

A thread that fails to register itself exits with the mutex, and nobody makes that consistent again.
So the next start may abort the program (`abort_after_failure`).
-/

set_option autoImplicit false

namespace Comsg.Proofs.Libcocall

open Comsg.Lib
open Comsg.Libcocall

/-- A worker that has registered itself. -/
def Registered : WorkerPc → Prop
  | .signal | .unlock | .accept => True
  | _                           => False

/-- A thread that was not created, or has exited. -/
def Gone (w : WorkerPc) : Prop := w = .absent ∨ w = .exited

/-! ### What the results say -/

/-- What the thread that starts the others knows of the worker. -/
def StarterOk (w : WorkerPc) (scbCap : Bool) : StarterPc → Prop
  | .next | .lockRegistration | .create | .createFailed => w = .absent
  | .unlockRegistration | .unlockCreation               => scbCap = true
  | .failedRegistration | .failedCreation               => w = .exited
  | _                                                   => True

/-- A result is `true` for a worker that has registered itself, and `false` for one that is gone. -/
structure ResultsOk (s : Endpoints) : Prop where
  registered : ∀ i, s.scbCap i = true ↔ Registered (s.workers i)
  succeeded : ∀ i, s.results[i]? = some true → s.scbCap i = true
  failed : ∀ i, s.results[i]? = some false → Gone (s.workers i)
  later : ∀ i, s.current < i → s.workers i = .absent
  starter : StarterOk (s.workers s.current) (s.scbCap s.current) s.starter

section Results
variable {n i : Nat} {s s' : Endpoints}

theorem resultsOk_init : ResultsOk initEndpoints where
  registered _ := by simp [initEndpoints, Registered]
  succeeded i h := by simp [initEndpoints] at h
  failed i h := by simp [initEndpoints] at h
  later _ _ := rfl
  starter := rfl

/-- A step of the starting thread that leaves the workers and the results alone. -/
theorem ResultsOk.goto (h : ResultsOk s) {creation registration : RobustMutex ThreadId}
    {pc : StarterPc} (hpc : StarterOk (s.workers s.current) (s.scbCap s.current) pc) :
    ResultsOk { s with creation := creation, registration := registration, starter := pc } where
  registered := h.registered
  succeeded := h.succeeded
  failed := h.failed
  later := h.later
  starter := hpc

theorem getElem?_concat {results : List Bool} {result b : Bool}
    (h : (results ++ [result])[i]? = some b) :
    results[i]? = some b ∨ i = results.length ∧ result = b := by
  by_cases hi : i < results.length
  · rw [List.getElem?_append_left hi] at h
    exact .inl h
  · rw [List.getElem?_append_right (Nat.le_of_not_lt hi)] at h
    have hlt := (List.getElem?_eq_some_iff.mp h).1
    rw [List.length_singleton] at hlt
    have hzero : i - results.length = 0 := by omega
    rw [hzero] at h
    exact .inr ⟨by omega, Option.some.inj h⟩

/-- The end of `start_endpoint_thread`. -/
theorem ResultsOk.finish (h : ResultsOk s) {creation registration : RobustMutex ThreadId}
    {result : Bool} (htrue : result = true → s.scbCap s.current = true)
    (hfalse : result = false → Gone (s.workers s.current)) :
    ResultsOk ({ s with creation := creation, registration := registration }.finish result) where
  registered := h.registered
  succeeded i hi := by
    cases getElem?_concat hi with
    | inl hold => exact h.succeeded i hold
    | inr hnew =>
      rw [hnew.1]
      exact htrue hnew.2
  failed i hi := by
    cases getElem?_concat hi with
    | inl hold => exact h.failed i hold
    | inr hnew =>
      rw [hnew.1]
      exact hfalse hnew.2
  later i hi := by
    have hlength : s.current + 1 < i := by simpa [Endpoints.finish, Endpoints.current] using hi
    exact h.later i (by omega)
  starter := by
    have hlength : (s.results ++ [result]).length = s.current + 1 := List.length_append
    show s.workers (s.results ++ [result]).length = .absent
    rw [hlength]
    exact h.later _ (Nat.lt_succ_self _)

/-- A step of a worker that has not exited. The thread that starts it may be woken up. -/
theorem ResultsOk.setWorker (h : ResultsOk s) {registration : RobustMutex ThreadId}
    {pc : StarterPc} {scbCap : Nat → Bool} {w : WorkerPc} (hcreated : s.workers i ≠ .absent)
    (hrunning : s.workers i ≠ .exited) (hother : ∀ j, j ≠ i → scbCap j = s.scbCap j)
    (hkeeps : s.scbCap i = true → scbCap i = true) (hregistered : scbCap i = true ↔ Registered w)
    (hpc : pc = s.starter ∨ pc = .relock) :
    ResultsOk ({ s with
      registration := registration, starter := pc, scbCap := scbCap }.setWorker i w) := by
  have hsame {j : Nat} (hj : j ≠ i) : Function.update s.workers i w j = s.workers j :=
    Function.update_of_ne hj _ _
  have hgone {j : Nat} (hj : Gone (s.workers j)) : j ≠ i := by
    intro heq
    subst heq
    cases hj with
    | inl habsent => exact hcreated habsent
    | inr hexited => exact hrunning hexited
  have hscb {j : Nat} (hj : s.scbCap j = true) : scbCap j = true := by
    by_cases heq : j = i
    · subst heq
      exact hkeeps hj
    · rw [hother j heq, hj]
  refine ⟨fun j => ?_, fun j hj => hscb (h.succeeded j hj), fun j hj => ?_, fun j hj => ?_, ?_⟩
  · show scbCap j = true ↔ Registered (Function.update s.workers i w j)
    by_cases heq : j = i
    · subst heq
      rw [Function.update_self]
      exact hregistered
    · rw [hsame heq, hother j heq]
      exact h.registered j
  · show Gone (Function.update s.workers i w j)
    have hold := h.failed j hj
    rw [hsame (hgone hold)]
    exact hold
  · show Function.update s.workers i w j = .absent
    have hold := h.later j hj
    rw [hsame (hgone (.inl hold))]
    exact hold
  · show StarterOk (Function.update s.workers i w s.current) (scbCap s.current) pc
    cases hpc with
    | inr hrelock =>
      subst hrelock
      trivial
    | inl hpc =>
      subst hpc
      have hstarter := h.starter
      cases hcase : s.starter with
      | next | lockRegistration | create | createFailed =>
        rw [hcase] at hstarter
        show Function.update s.workers i w s.current = .absent
        rw [hsame (hgone (.inl hstarter))]
        exact hstarter
      | unlockRegistration | unlockCreation =>
        rw [hcase] at hstarter
        exact hscb hstarter
      | failedRegistration | failedCreation =>
        rw [hcase] at hstarter
        show Function.update s.workers i w s.current = .exited
        rw [hsame (hgone (.inr hstarter))]
        exact hstarter
      | wait | waiting | relock | check | peekjoin | aborted => trivial

theorem signal_cases (s : Endpoints) :
    ∃ pc, s.signal = { s with starter := pc } ∧ (pc = s.starter ∨ pc = .relock) := by
  unfold Endpoints.signal
  split
  · exact ⟨.relock, rfl, .inr rfl⟩
  · exact ⟨s.starter, rfl, .inl rfl⟩

theorem resultsOk_worker {registered : Bool} (h : ResultsOk s)
    (hs : s.workerStep i registered = some s') : ResultsOk s' := by
  have hregistered := h.registered i
  have ⟨pc, hsignal, hpc⟩ := signal_cases s
  unfold Endpoints.workerStep at hs
  cases hw : s.workers i with
  | absent => simp [hw] at hs
  | lock =>
    simp only [hw] at hs
    have ⟨q, _, heq⟩ := Option.bind_eq_some_iff.mp hs
    cases heq
    exact h.setWorker (by simp [hw]) (by simp [hw]) (fun _ _ => rfl) id
      (by rw [hregistered, hw]; exact Iff.rfl) (.inl rfl)
  | register =>
    simp only [hw] at hs
    split_ifs at hs
    · cases hs
      refine h.setWorker (by simp [hw]) (by simp [hw]) (fun j hj => Function.update_of_ne hj _ _)
        (fun _ => Function.update_self ..) ?_ (.inl rfl)
      rw [Function.update_self]
      exact ⟨fun _ => trivial, fun _ => rfl⟩
    · cases hs
      exact h.setWorker (by simp [hw]) (by simp [hw]) (fun _ _ => rfl) id
        (by rw [hregistered, hw]; exact Iff.rfl) (.inl rfl)
  | signal =>
    simp only [hw, hsignal] at hs
    cases hs
    exact h.setWorker (by simp [hw]) (by simp [hw]) (fun _ _ => rfl) id
      (by rw [hregistered, hw]; exact Iff.rfl) hpc
  | unlock =>
    simp only [hw] at hs
    cases hs
    exact h.setWorker (by simp [hw]) (by simp [hw]) (fun _ _ => rfl) id
      (by rw [hregistered, hw]; exact Iff.rfl) (.inl rfl)
  | accept => simp [hw] at hs
  | signalFailed =>
    simp only [hw, hsignal] at hs
    cases hs
    exact h.setWorker (by simp [hw]) (by simp [hw]) (fun _ _ => rfl) id
      (by rw [hregistered, hw]; exact Iff.rfl) hpc
  | exit =>
    simp only [hw] at hs
    cases hs
    exact h.setWorker (by simp [hw]) (by simp [hw]) (fun _ _ => rfl) id
      (by rw [hregistered, hw]; exact Iff.rfl) (.inl rfl)
  | exiting =>
    simp only [hw] at hs
    cases hs
    exact h.setWorker (by simp [hw]) (by simp [hw]) (fun _ _ => rfl) id
      (by rw [hregistered, hw]; exact Iff.rfl) (.inl rfl)
  | exited => simp [hw] at hs

/-- A new worker. -/
theorem ResultsOk.create (h : ResultsOk s) (habsent : s.workers s.current = .absent) :
    ResultsOk ((s.setWorker s.current .lock).goto .wait) := by
  have hsame {j : Nat} (hj : j ≠ s.current) :
      Function.update s.workers s.current .lock j = s.workers j := Function.update_of_ne hj _ _
  have hbefore {j : Nat} {b : Bool} (hj : s.results[j]? = some b) : j ≠ s.current :=
    Nat.ne_of_lt (List.getElem?_eq_some_iff.mp hj).1
  refine ⟨fun j => ?_, h.succeeded, fun j hj => ?_, fun j hj => ?_, trivial⟩
  · show s.scbCap j = true ↔ Registered (Function.update s.workers s.current .lock j)
    by_cases heq : j = s.current
    · rw [heq, Function.update_self, h.registered, habsent]
      exact Iff.rfl
    · rw [hsame heq]
      exact h.registered j
  · show Gone (Function.update s.workers s.current .lock j)
    rw [hsame (hbefore hj)]
    exact h.failed j hj
  · show Function.update s.workers s.current .lock j = .absent
    have hlt : s.current < j := hj
    rw [hsame (Nat.ne_of_gt hlt)]
    exact h.later j hlt

theorem resultsOk_starter {created : Bool} (h : ResultsOk s)
    (hs : s.starterStep n created = some s') : ResultsOk s' := by
  have hstarter := h.starter
  unfold Endpoints.starterStep at hs
  cases hpc : s.starter with
  | next =>
    simp only [hpc] at hs hstarter
    split_ifs at hs
    have ⟨q, _, heq⟩ := Option.bind_eq_some_iff.mp hs
    cases heq
    exact h.goto hstarter
  | lockRegistration =>
    simp only [hpc] at hs hstarter
    have ⟨q, _, heq⟩ := Option.bind_eq_some_iff.mp hs
    cases heq
    exact h.goto hstarter
  | create =>
    simp only [hpc] at hs hstarter
    split_ifs at hs
    · cases hs
      exact h.create hstarter
    · cases hs
      exact h.goto hstarter
  | createFailed =>
    simp only [hpc] at hs hstarter
    cases hs
    exact h.finish (fun hr => absurd hr (by decide)) fun _ => .inl hstarter
  | wait =>
    simp only [hpc] at hs
    split_ifs at hs
    · cases hs
      exact h.goto trivial
    · cases hs
      exact h.goto trivial
  | waiting => simp [hpc] at hs
  | relock =>
    simp only [hpc] at hs
    have ⟨q, _, heq⟩ := Option.bind_eq_some_iff.mp hs
    cases heq
    exact h.goto trivial
  | check error =>
    simp only [hpc] at hs
    split_ifs at hs with hfailed
    · cases hs
      exact h.goto trivial
    · cases hs
      refine h.goto ?_
      show s.scbCap s.current = true
      simpa using fun hscb => hfailed (.inl hscb)
  | peekjoin =>
    simp only [hpc] at hs
    split_ifs at hs with hexited
    · cases hs
      exact h.goto hexited
    · cases hs
      exact h.goto trivial
  | failedRegistration =>
    simp only [hpc] at hs hstarter
    cases hs
    exact h.goto hstarter
  | failedCreation =>
    simp only [hpc] at hs hstarter
    cases hs
    exact h.finish (fun hr => absurd hr (by decide)) fun _ => .inr hstarter
  | unlockRegistration =>
    simp only [hpc] at hs hstarter
    cases hs
    exact h.goto hstarter
  | unlockCreation =>
    simp only [hpc] at hs hstarter
    cases hs
    exact h.finish (fun _ => hstarter) fun hr => absurd hr (by decide)
  | aborted => simp [hpc] at hs

/-- The three kinds of steps. -/
theorem step_cases {act : EndpointAct} (hs : s.step n act = some s') :
    (∃ created, act = .starter created ∧ s.starterStep n created = some s') ∨
    (act = .wakeup ∧ s' = s.goto .relock) ∨
    ∃ i registered, act = .worker i registered ∧ s.workerStep i registered = some s' := by
  unfold Endpoints.step at hs
  by_cases haborted : s.starter = .aborted
  · rw [if_pos haborted] at hs
    cases hs
  · rw [if_neg haborted] at hs
    cases act with
    | starter created => exact .inl ⟨created, rfl, hs⟩
    | worker i registered => exact .inr (.inr ⟨i, registered, rfl, hs⟩)
    | wakeup =>
      by_cases hwaiting : s.starter = .waiting
      · rw [if_pos hwaiting] at hs
        exact .inr (.inl ⟨rfl, (Option.some.inj hs).symm⟩)
      · rw [if_neg hwaiting] at hs
        cases hs

theorem resultsOk_step {act : EndpointAct} (h : ResultsOk s) (hs : s.step n act = some s') :
    ResultsOk s' := by
  rcases step_cases hs with ⟨created, _, hs⟩ | ⟨_, hs⟩ | ⟨i, registered, _, hs⟩
  · exact resultsOk_starter h hs
  · subst hs
    exact h.goto trivial
  · exact resultsOk_worker h hs

theorem resultsOk_reach (h : Reach (Endpoints.step n) anyAct initEndpoints s) : ResultsOk s := by
  refine Reach.invariant resultsOk_init ?_ h
  intro t act t' _ ht _ hstep
  exact resultsOk_step ht hstep

end Results

/-! ### Runs without a failure -/

/-- No wake-up without a signal, and no `coregister` that fails. `pthread_create` may fail. -/
def Plain (_ : Endpoints) : EndpointAct → Prop
  | .starter _           => True
  | .wakeup              => False
  | .worker _ registered => registered = true

instance (s : Endpoints) (act : EndpointAct) : Decidable (Plain s act) := by
  cases act <;> unfold Plain <;> infer_instance

/-- Who owns `registration_mutex`, and where the worker is, for each place of the thread that starts
it. -/
def PhaseOk (m : RobustMutex ThreadId) (i : Nat) (w : WorkerPc) (scbCap : Bool) :
    StarterPc → Prop
  | .next | .lockRegistration => m = .free ∧ w = .absent
  | .create | .createFailed   => m = .heldBy .starter ∧ w = .absent
  | .wait                     => m = .heldBy .starter ∧ w = .lock
  | .waiting => w = .lock ∧ m = .free ∨ w = .register ∧ m = .heldBy (.worker i) ∨
    w = .signal ∧ m = .heldBy (.worker i) ∧ scbCap = true
  | .relock => scbCap = true ∧
    (w = .unlock ∧ m = .heldBy (.worker i) ∨ w = .accept ∧ m = .free)
  | .check error => error = .ok ∧ scbCap = true ∧ w = .accept ∧ m = .heldBy .starter
  | .unlockRegistration => w = .accept ∧ m = .heldBy .starter
  | .unlockCreation     => w = .accept ∧ m = .free
  | .peekjoin | .failedRegistration | .failedCreation | .aborted => False

/-- What holds in a run without a failure. -/
structure PlainOk (n : Nat) (s : Endpoints) : Prop where
  creation : s.creation = .free ∨ s.creation = .heldBy .starter
  earlier : ∀ i, i < s.current → s.workers i = .absent ∨ s.workers i = .accept
  later : ∀ i, s.current < i → s.workers i = .absent
  current_le : s.current ≤ n
  current_lt : s.starter ≠ .next → s.current < n
  phase : PhaseOk s.registration s.current (s.workers s.current) (s.scbCap s.current) s.starter

/-- The steps that a worker takes until it accepts calls. -/
def workerLeft : WorkerPc → Nat
  | .lock     => 4
  | .register => 3
  | .signal   => 2
  | .unlock   => 1
  | _         => 0

/-- The steps to the end of `start_endpoint_thread`, with those of the worker. -/
def startLeft (w : WorkerPc) : StarterPc → Nat
  | .next               => 12
  | .lockRegistration   => 11
  | .create             => 10
  | .createFailed       => 1
  | .wait               => 5 + workerLeft w
  | .waiting            => 4 + workerLeft w
  | .relock             => 4 + workerLeft w
  | .check _            => 3
  | .unlockRegistration => 2
  | .unlockCreation     => 1
  | _                   => 0

/-- The steps that are left for all endpoints. -/
def stepsLeft (n : Nat) (s : Endpoints) : Nat :=
  12 * (n - s.current) + startLeft (s.workers s.current) s.starter - 12

section Plain
variable {n i : Nat} {s s' : Endpoints}

theorem plainOk_init (n : Nat) : PlainOk n initEndpoints where
  creation := .inl rfl
  earlier i hi := absurd hi (Nat.not_lt_zero i)
  later _ _ := rfl
  current_le := Nat.zero_le n
  current_lt h := absurd rfl h
  phase := ⟨rfl, rfl⟩

/-- A step within one call of `start_endpoint_thread`. -/
theorem PlainOk.move (h : PlainOk n s) {creation registration : RobustMutex ThreadId}
    {pc : StarterPc} {w : WorkerPc} {scbCap : Nat → Bool}
    (hcreation : creation = .free ∨ creation = .heldBy .starter) (hlt : s.current < n)
    (hphase : PhaseOk registration s.current w (scbCap s.current) pc)
    (hleft : startLeft w pc + 1 ≤ startLeft (s.workers s.current) s.starter) :
    let s' : Endpoints := { s with
      creation := creation, registration := registration, starter := pc, scbCap := scbCap
      workers := Function.update s.workers s.current w }
    PlainOk n s' ∧ stepsLeft n s' + 1 ≤ stepsLeft n s := by
  intro s'
  have hother {j : Nat} (hj : j ≠ s.current) : s'.workers j = s.workers j :=
    Function.update_of_ne hj _ _
  have hself : s'.workers s'.current = w := Function.update_self ..
  refine ⟨⟨hcreation, fun j hj => ?_, fun j hj => ?_, h.current_le, fun _ => hlt, ?_⟩, ?_⟩
  · rw [hother (Nat.ne_of_lt hj)]
    exact h.earlier j hj
  · rw [hother (Nat.ne_of_gt hj)]
    exact h.later j hj
  · rw [hself]
    exact hphase
  · unfold stepsLeft
    rw [hself]
    show 12 * (n - s.current) + startLeft w pc - 12 + 1 ≤ _
    have hpos : 12 ≤ 12 * (n - s.current) := by omega
    omega

/-- A step of the starting thread within one call. -/
theorem PlainOk.goto (h : PlainOk n s) {creation registration : RobustMutex ThreadId}
    {pc : StarterPc} (hcreation : creation = .free ∨ creation = .heldBy .starter)
    (hlt : s.current < n)
    (hphase : PhaseOk registration s.current (s.workers s.current) (s.scbCap s.current) pc)
    (hleft : startLeft (s.workers s.current) pc + 1
      ≤ startLeft (s.workers s.current) s.starter) :
    let s' : Endpoints := { s with
      creation := creation, registration := registration, starter := pc }
    PlainOk n s' ∧ stepsLeft n s' + 1 ≤ stepsLeft n s := by
  have hmove := @PlainOk.move _ _ h _ _ _ _ s.scbCap hcreation hlt hphase hleft
  simp only [Function.update_eq_self] at hmove
  exact hmove

/-- The end of a call. The worker has come to its loop, or there is none. -/
theorem PlainOk.finish (h : PlainOk n s) {creation : RobustMutex ThreadId} {result : Bool}
    (hcreation : creation = .free ∨ creation = .heldBy .starter) (hlt : s.current < n)
    (hworker : s.workers s.current = .absent ∨ s.workers s.current = .accept)
    (hleft : 1 ≤ startLeft (s.workers s.current) s.starter) :
    let s' := { s with creation := creation, registration := .free }.finish result
    PlainOk n s' ∧ stepsLeft n s' + 1 ≤ stepsLeft n s := by
  intro s'
  have hnext : s'.current = s.current + 1 := List.length_append
  refine ⟨⟨hcreation, fun j hj => ?_, fun j hj => ?_, ?_, fun hpc => absurd rfl hpc, ?_⟩, ?_⟩
  · rw [hnext] at hj
    by_cases heq : j = s.current
    · subst heq
      exact hworker
    · exact h.earlier j (by omega)
  · rw [hnext] at hj
    exact h.later j (by omega)
  · rw [hnext]
    exact hlt
  · refine ⟨rfl, ?_⟩
    show s.workers s'.current = .absent
    rw [hnext]
    exact h.later _ (Nat.lt_succ_self _)
  · unfold stepsLeft
    rw [hnext]
    show 12 * (n - (s.current + 1)) + 12 - 12 + 1 ≤ _
    omega

theorem lock_creation {m m' : RobustMutex ThreadId} {e : MutexError}
    (hm : m = .free ∨ m = .heldBy .starter) (hlock : m.lock .starter = some (m', e)) :
    m' = .heldBy .starter := by
  cases hm with
  | inl hfree =>
    subst hfree
    cases hlock
    rfl
  | inr hheld =>
    subst hheld
    rw [RobustMutex.lock_own] at hlock
    cases hlock
    rfl

theorem unlock_creation {m : RobustMutex ThreadId} (hm : m = .free ∨ m = .heldBy .starter) :
    m.unlock .starter = .free := by
  cases hm with
  | inl hfree =>
    subst hfree
    rfl
  | inr hheld =>
    subst hheld
    exact RobustMutex.unlock_own _

theorem plainOk_starter {created : Bool} (h : PlainOk n s)
    (hs : s.starterStep n created = some s') :
    PlainOk n s' ∧ stepsLeft n s' + 1 ≤ stepsLeft n s := by
  have hphase := h.phase
  have hlt := h.current_lt
  unfold Endpoints.starterStep at hs
  cases hpc : s.starter with
  | next =>
    simp only [hpc] at hs hphase
    split_ifs at hs with hcurrent
    have ⟨q, hlock, heq⟩ := Option.bind_eq_some_iff.mp hs
    cases heq
    refine h.goto (.inr (lock_creation h.creation hlock)) hcurrent hphase ?_
    rw [hpc]
    exact Nat.le_refl _
  | lockRegistration =>
    simp only [hpc] at hs hphase hlt
    have ⟨hfree, habsent⟩ := hphase
    rw [hfree, RobustMutex.lock_free] at hs
    cases hs
    refine h.goto h.creation (hlt (by decide)) ⟨rfl, habsent⟩ ?_
    rw [hpc]
    exact Nat.le_refl _
  | create =>
    simp only [hpc] at hs hphase hlt
    have ⟨hheld, habsent⟩ := hphase
    split_ifs at hs
    · cases hs
      refine h.move (w := .lock) h.creation (hlt (by decide)) ⟨hheld, rfl⟩ ?_
      rw [hpc]
      exact Nat.le_refl _
    · cases hs
      refine h.goto h.creation (hlt (by decide)) ⟨hheld, habsent⟩ ?_
      rw [hpc]
      show 1 + 1 ≤ 10
      decide
  | createFailed =>
    simp only [hpc] at hs hphase hlt
    have ⟨hheld, habsent⟩ := hphase
    rw [hheld, RobustMutex.unlock_own] at hs
    cases hs
    refine h.finish h.creation (hlt (by decide)) (.inl habsent) ?_
    rw [hpc]
    exact Nat.le_refl _
  | wait =>
    simp only [hpc] at hs hphase hlt
    have ⟨hheld, hlock⟩ := hphase
    have howner : s.registration.owner = some .starter := by
      rw [hheld]
      rfl
    rw [if_pos howner, hheld, RobustMutex.unlock_own] at hs
    cases hs
    refine h.goto h.creation (hlt (by decide)) (.inl ⟨hlock, rfl⟩) ?_
    rw [hpc, hlock]
    exact Nat.le_refl _
  | waiting => simp [hpc] at hs
  | relock =>
    simp only [hpc] at hs hphase hlt
    have ⟨hscb, hworker⟩ := hphase
    cases hworker with
    | inl hunlock =>
      rw [hunlock.2, RobustMutex.lock_other (by simp)] at hs
      cases hs
    | inr haccept =>
      rw [haccept.2, RobustMutex.lock_free] at hs
      cases hs
      refine h.goto h.creation (hlt (by decide)) ⟨rfl, hscb, haccept.1, rfl⟩ ?_
      rw [hpc, haccept.1]
      exact Nat.le_refl _
  | check error =>
    simp only [hpc] at hs hphase hlt
    have ⟨herror, hscb, haccept, hheld⟩ := hphase
    subst herror
    rw [if_neg (by simp [hscb])] at hs
    cases hs
    refine h.goto h.creation (hlt (by simp)) ⟨haccept, hheld⟩ ?_
    rw [hpc]
    exact Nat.le_refl _
  | unlockRegistration =>
    simp only [hpc] at hs hphase hlt
    have ⟨haccept, hheld⟩ := hphase
    rw [hheld, RobustMutex.unlock_own] at hs
    cases hs
    refine h.goto h.creation (hlt (by decide)) ⟨haccept, rfl⟩ ?_
    rw [hpc]
    exact Nat.le_refl _
  | unlockCreation =>
    simp only [hpc] at hs hphase hlt
    have ⟨haccept, hfree⟩ := hphase
    cases hs
    have hend := @PlainOk.finish _ _ h _ true (.inl (unlock_creation h.creation))
      (hlt (by decide)) (.inr haccept) (by rw [hpc]; exact Nat.le_refl _)
    rw [← hfree] at hend
    exact hend
  | peekjoin | failedRegistration | failedCreation | aborted =>
    rw [hpc] at hphase
    cases hphase

/-- Only the worker that is being started takes steps. -/
theorem plainOk_worker (h : PlainOk n s) (hs : s.workerStep i true = some s') :
    PlainOk n s' ∧ stepsLeft n s' + 1 ≤ stepsLeft n s := by
  have hphase := h.phase
  have hi : i = s.current := by
    have hstuck (hw : s.workers i = .absent ∨ s.workers i = .accept) : False := by
      unfold Endpoints.workerStep at hs
      cases hw with
      | inl habsent => simp [habsent] at hs
      | inr haccept => simp [haccept] at hs
    rcases Nat.lt_trichotomy i s.current with hlt | heq | hgt
    · exact (hstuck (h.earlier i hlt)).elim
    · exact heq
    · exact (hstuck (.inl (h.later i hgt))).elim
  subst hi
  have hlt := h.current_lt
  unfold Endpoints.workerStep at hs
  cases hpc : s.starter with
  | next | lockRegistration | create | createFailed =>
    rw [hpc] at hphase
    simp [hphase.2] at hs
  | wait =>
    rw [hpc] at hphase
    -- the mutex is not free before the thread that starts it waits
    simp [hphase.2, hphase.1, RobustMutex.lock_other] at hs
  | waiting =>
    rw [hpc] at hphase hlt
    rcases hphase with ⟨hw, hfree⟩ | ⟨hw, hheld⟩ | ⟨hw, hheld, hscb⟩
    · simp only [hw, hfree, RobustMutex.lock_free, Option.bind_eq_bind, Option.bind_some] at hs
      cases hs
      refine @PlainOk.move _ _ h _ _ _ .register s.scbCap h.creation (hlt (by decide)) ?_ ?_
      · rw [hpc]
        exact .inr (.inl ⟨rfl, rfl⟩)
      · rw [hpc, hw]
        exact Nat.le_refl _
    · simp only [hw, if_true] at hs
      cases hs
      refine h.move (w := .signal) h.creation (hlt (by decide)) ?_ ?_
      · rw [hpc]
        exact .inr (.inr ⟨rfl, hheld, Function.update_self ..⟩)
      · rw [hpc, hw]
        exact Nat.le_refl _
    · have hsignal : s.signal = s.goto .relock := if_pos hpc
      simp only [hw, hsignal] at hs
      cases hs
      refine @PlainOk.move _ _ h _ _ _ .unlock s.scbCap h.creation (hlt (by decide))
        ⟨hscb, .inl ⟨rfl, hheld⟩⟩ ?_
      rw [hpc, hw]
      exact Nat.le_refl _
  | relock =>
    rw [hpc] at hphase hlt
    have ⟨hscb, hworker⟩ := hphase
    cases hworker with
    | inl hunlock =>
      simp only [hunlock.1, hunlock.2, RobustMutex.unlock_own] at hs
      cases hs
      refine @PlainOk.move _ _ h _ _ _ .accept s.scbCap h.creation (hlt (by decide)) ?_ ?_
      · rw [hpc]
        exact ⟨hscb, .inr ⟨rfl, rfl⟩⟩
      · rw [hpc, hunlock.1]
        exact Nat.le_refl _
    | inr haccept => simp [haccept.1] at hs
  | check error =>
    rw [hpc] at hphase
    simp [hphase.2.2.1] at hs
  | unlockRegistration | unlockCreation =>
    rw [hpc] at hphase
    simp [hphase.1] at hs
  | peekjoin | failedRegistration | failedCreation | aborted =>
    rw [hpc] at hphase
    cases hphase

theorem plainOk_step {act : EndpointAct} (h : PlainOk n s) (hok : Plain s act)
    (hs : s.step n act = some s') : PlainOk n s' ∧ stepsLeft n s' + 1 ≤ stepsLeft n s := by
  rcases step_cases hs with ⟨created, _, hstep⟩ | ⟨hact, _⟩ | ⟨i, registered, hact, hstep⟩
  · exact plainOk_starter h hstep
  · subst hact
    cases hok
  · subst hact
    have hregistered : registered = true := hok
    subst hregistered
    exact plainOk_worker h hstep

/-- Some thread can go on until all endpoints have been started. -/
theorem PlainOk.progress (h : PlainOk n s) (hlt : s.current < n) :
    ∃ act, Plain s act ∧ (s.step n act).isSome = true := by
  have hphase := h.phase
  have hstarter (haborted : s.starter ≠ .aborted) (hsome : (s.starterStep n true).isSome = true) :
      ∃ act, Plain s act ∧ (s.step n act).isSome = true := by
    refine ⟨.starter true, trivial, ?_⟩
    rw [Endpoints.step, if_neg haborted]
    exact hsome
  have hworker (haborted : s.starter ≠ .aborted)
      (hsome : (s.workerStep s.current true).isSome = true) :
      ∃ act, Plain s act ∧ (s.step n act).isSome = true := by
    refine ⟨.worker s.current true, rfl, ?_⟩
    rw [Endpoints.step, if_neg haborted]
    exact hsome
  cases hpc : s.starter with
  | next =>
    refine hstarter (by simp [hpc]) ?_
    cases h.creation with
    | inl hfree => simp [Endpoints.starterStep, hpc, hlt, hfree]
    | inr hheld => simp [Endpoints.starterStep, hpc, hlt, hheld]
  | lockRegistration =>
    rw [hpc] at hphase
    exact hstarter (by simp [hpc]) (by simp [Endpoints.starterStep, hpc, hphase.1])
  | wait =>
    refine hstarter (by simp [hpc]) ?_
    simp only [Endpoints.starterStep, hpc]
    split <;> rfl
  | check error =>
    refine hstarter (by simp [hpc]) ?_
    simp only [Endpoints.starterStep, hpc]
    split <;> rfl
  | create | createFailed | unlockRegistration | unlockCreation =>
    exact hstarter (by simp [hpc]) (by simp [Endpoints.starterStep, hpc])
  | waiting =>
    rw [hpc] at hphase
    rcases hphase with ⟨hw, hfree⟩ | ⟨hw, _⟩ | ⟨hw, _⟩
    · exact hworker (by simp [hpc]) (by simp [Endpoints.workerStep, hw, hfree])
    · exact hworker (by simp [hpc]) (by simp [Endpoints.workerStep, hw])
    · exact hworker (by simp [hpc]) (by simp [Endpoints.workerStep, hw])
  | relock =>
    rw [hpc] at hphase
    cases hphase.2 with
    | inl hunlock => exact hworker (by simp [hpc]) (by simp [Endpoints.workerStep, hunlock.1])
    | inr haccept =>
      exact hstarter (by simp [hpc]) (by simp [Endpoints.starterStep, hpc, haccept.2])
  | peekjoin | failedRegistration | failedCreation | aborted =>
    rw [hpc] at hphase
    cases hphase

theorem plainOk_run {acts : List EndpointAct}
    (h : Run (Endpoints.step n) Plain initEndpoints acts s) :
    PlainOk n s ∧ acts.length + stepsLeft n s ≤ 12 * n := by
  induction h with
  | init =>
    refine ⟨plainOk_init n, ?_⟩
    show 0 + (12 * (n - 0) + 12 - 12) ≤ 12 * n
    omega
  | next act _ hok hs ih =>
    have ⟨hplain, hlength⟩ := ih
    have ⟨hplain', hleft⟩ := plainOk_step hplain hok hs
    refine ⟨hplain', ?_⟩
    rw [List.length_append, List.length_singleton]
    omega

/-- In every run `start_endpoint_thread` returns `true` for a thread that has registered itself, and
`false` for one that was not created or has exited. In a run without a failure it always returns,
within twelve steps of the two threads, and the program never aborts. -/
theorem start_endpoints (n : Nat) :
    (∀ s, Reach (Endpoints.step n) anyAct initEndpoints s →
      ∀ (i : Nat) (result : Bool), s.results[i]? = some result →
        s.scbCap i = result ∧
          if result = true then Registered (s.workers i) else Gone (s.workers i)) ∧
    ∀ acts s, Run (Endpoints.step n) Plain initEndpoints acts s →
      s.starter ≠ .aborted ∧ acts.length ≤ 12 * n ∧
        (s.results.length < n → ∃ act, Plain s act ∧ (s.step n act).isSome = true) := by
  constructor
  · intro s h i result hresult
    have hok := resultsOk_reach h
    cases result with
    | true =>
      have hscb := hok.succeeded i hresult
      exact ⟨hscb, (hok.registered i).mp hscb⟩
    | false =>
      have hgone := hok.failed i hresult
      refine ⟨?_, hgone⟩
      have hnot : ¬Registered (s.workers i) := by
        cases hgone with
        | inl habsent =>
          rw [habsent]
          exact id
        | inr hexited =>
          rw [hexited]
          exact id
      exact Bool.eq_false_iff.mpr fun hscb => hnot ((hok.registered i).mp hscb)
  · intro acts s h
    have ⟨hplain, hlength⟩ := plainOk_run h
    refine ⟨fun haborted => ?_, by omega, hplain.progress⟩
    have hphase := hplain.phase
    rw [haborted] at hphase
    exact hphase

end Plain

/-! ### A thread that cannot register itself -/

/-- The first of two threads fails to register itself and exits. -/
def failFirst : List EndpointAct :=
  List.replicate 4 (.starter true) ++ List.replicate 2 (.worker 0 false) ++
    List.replicate 3 (.worker 0 true) ++ List.replicate 5 (.starter true)

/-- Its mutex can not be recovered afterwards. Nobody waits for the second thread any more, and the
program aborts although that could register itself. -/
theorem abort_after_failure :
    ∃ s, Reach (Endpoints.step 2) anyAct initEndpoints s ∧ s.results = [false] ∧
      s.starter = .aborted ∧ s.workers 1 = .lock := by
  let acts := failFirst ++ List.replicate 6 (EndpointAct.starter true)
  obtain ⟨s, hs⟩ : ∃ s, runFrom (Endpoints.step 2) initEndpoints acts = some s :=
    Option.isSome_iff_exists.mp (by decide)
  have hresults : s.results = [false] := eq_of_map_runFrom (fun s => s.results) hs (by decide)
  have hstarter : s.starter = .aborted := eq_of_map_runFrom (fun s => s.starter) hs (by decide)
  have hworker : s.workers 1 = .lock := eq_of_map_runFrom (fun s => s.workers 1) hs (by decide)
  exact ⟨s, reach_of_runFrom _ _ _ hs, hresults, hstarter, hworker⟩

end Comsg.Proofs.Libcocall
