import Comsg.Coeventd.Trigger
import Comsg.Lib.Queue
import Comsg.Lib.Transition

/-!
# `Comsg.Proofs.Coeventd.Trigger`: each callback runs once

The trigger takes the event with a plain store. When it does so while no installer holds the
lock, no installer gets it any more, the trigger empties the queue, and the event stays finished
(`callbacks_run_exactly_once`). When an installer holds the lock at that moment, the trigger
works beside it. The installer then queues its callback on a finished event, and its
`unlock_coevent` sets the event free again (`install_lost_in_trigger`).
-/

set_option autoImplicit false

namespace Comsg.Proofs.Coeventd

open Comsg.Lib
open Comsg.Coeventd

/-- Those who can hold the lock. -/
inductive Party
  | installer (t : Nat)
  | trigger
  deriving DecidableEq

/-- The party is between taking the lock and giving it up. -/
def Holds (s : Trigger) : Party → Prop
  | .installer t => s.callers t ≠ .outside
  | .trigger     => s.trigger ≠ .waiting ∧ s.trigger ≠ .finished

/-- The trigger starts only while the lock is free. -/
def FiresUnlocked (s : Trigger) : TriggerAct → Prop
  | .fire => s.event.inProgress = 0
  | _     => True

/-- The step is one of an installer. -/
def ByInstaller : TriggerAct → Prop
  | .lock _ _ _ | .add _ | .unlock _ => True
  | _                                => False

/-- The value of `in_progress` fits where the trigger is. -/
def WordOk (word : Int) : TriggerPc → Prop
  | .waiting                         => word = 0 ∨ word = 1
  | .draining | .executing | .drained => word = 1
  | .finished                        => word = -1

/-- The invariant. -/
structure TriggerOk (s : Trigger) : Prop where
  one : ∀ t u, s.callers t ≠ .outside → s.callers u ≠ .outside → t = u
  held : ∀ t, s.callers t ≠ .outside → s.event.inProgress = 1 ∧ s.trigger = .waiting
  word : WordOk s.event.inProgress s.trigger
  empty : s.trigger = .drained ∨ s.trigger = .finished → s.event.callbacks = []
  served : Served s.added s.executed s.event.callbacks
  serial : ∀ ccb ∈ s.added, ccb.serial < s.added.length
  pending : ∀ t ccb, s.callers t = .added ccb → ccb ∈ s.added
  returned : ∀ ccb ∈ s.installed, ccb ∈ s.added

section Steps
variable {s s' : Trigger} {t : Nat} {func : Ptr} {args : CocallbackArgs}

/-! ### What a step does -/

theorem step_lock (h : s.step (.lock t func args) = some s') :
    s.callers t = .outside ∧ s.event.inProgress = 0 ∧
      s' = s.goto t (.locked func args) { s.event with inProgress := 1 } := by
  simp only [Trigger.step] at h
  split at h
  · rename_i e hpc hlock
    unfold Coevent.lockCoevent at hlock
    split at hlock
    · rename_i hfree
      cases hlock
      cases h
      exact ⟨hpc, hfree, rfl⟩
    · cases hlock
  · cases h

theorem step_add (h : s.step (.add t) = some s') :
    ∃ ccb : Cocallback, ccb.serial = s.added.length ∧ s.callers t ≠ .outside ∧
      s' = { s.goto t (.added ccb) { s.event with callbacks := s.event.callbacks ++ [ccb] } with
        added := s.added ++ [ccb] } := by
  simp only [Trigger.step] at h
  split at h
  · rename_i func args hpc
    split at h
    · rename_i e hadd
      unfold Coevent.addCocallback at hadd
      split at hadd
      · cases hadd
      · cases hadd
        cases h
        exact ⟨_, rfl, by simp [hpc], rfl⟩
    · cases h
  · cases h

theorem step_unlock (h : s.step (.unlock t) = some s') :
    ∃ ccb, s.callers t = .added ccb ∧
      s' = { s.goto t .outside { s.event with inProgress := 0 } with
        installed := s.installed ++ [ccb] } := by
  simp only [Trigger.step] at h
  split at h
  · rename_i ccb e hpc hunlock
    unfold Coevent.unlockCoevent at hunlock
    split at hunlock
    · cases hunlock
    · cases hunlock
      cases h
      exact ⟨ccb, hpc, rfl⟩
  · cases h

/-! ### The invariant is kept -/

/-- The callers other than `t` stay where they are. -/
theorem goto_outside {pc : InstallPc} {e : Coevent} {u : Nat}
    (h : (s.goto t pc e).callers u ≠ .outside) : u = t ∨ s.callers u ≠ .outside := by
  by_cases hu : u = t
  · exact .inl hu
  · refine .inr ?_
    simpa [Trigger.goto, Function.update_of_ne hu] using h

/-- No installer is at work unless the word says so. -/
theorem outside_of_word (h : TriggerOk s) (hword : s.event.inProgress ≠ 1) (t : Nat) :
    s.callers t = .outside := by
  by_contra hne
  exact hword (h.held t hne).1

theorem triggerOk_lock (h : TriggerOk s) (hs : s.step (.lock t func args) = some s') :
    TriggerOk s' := by
  obtain ⟨-, hfree, rfl⟩ := step_lock hs
  have hnone := outside_of_word h (by omega)
  have honly : ∀ u, (s.goto t (.locked func args) { s.event with inProgress := 1 }).callers u ≠
      .outside → u = t := fun u hu => (goto_outside hu).resolve_right fun hne => hne (hnone u)
  have hwaiting : s.trigger = .waiting := by
    have hword := h.word
    rw [hfree] at hword
    cases hpc : s.trigger <;> simp [hpc, WordOk] at hword ⊢
  exact {
    one := fun u v hu hv => (honly u hu).trans (honly v hv).symm
    held := fun _ _ => ⟨rfl, hwaiting⟩
    word := by
      show WordOk 1 s.trigger
      rw [hwaiting]
      exact .inr rfl
    empty := h.empty
    served := h.served
    serial := h.serial
    pending := fun u ccb hu => by
      have hut := honly u (by simp [hu])
      simp [Trigger.goto, hut] at hu
    returned := h.returned }

theorem triggerOk_add (h : TriggerOk s) (hs : s.step (.add t) = some s') : TriggerOk s' := by
  obtain ⟨ccb, hserial, hpc, rfl⟩ := step_add hs
  obtain ⟨hword, hwaiting⟩ := h.held t hpc
  have honly : ∀ u, (s.goto t (.added ccb) { s.event with
      callbacks := s.event.callbacks ++ [ccb] }).callers u ≠ .outside → u = t := fun u hu =>
    (goto_outside hu).elim id fun hne => h.one u t hne hpc
  have hfresh : ccb ∉ s.added := by
    intro hmem
    have := h.serial ccb hmem
    omega
  exact {
    one := fun u v hu hv => (honly u hu).trans (honly v hv).symm
    held := fun _ _ => ⟨hword, hwaiting⟩
    word := h.word
    empty := fun hend => by simp [Trigger.goto, hwaiting] at hend
    served := h.served.push hfresh
    serial := fun c hc => by
      show c.serial < (s.added ++ [ccb]).length
      rw [List.length_append, List.length_singleton]
      rcases List.mem_append.mp hc with hc | hc
      · have := h.serial c hc
        omega
      · rw [List.mem_singleton.mp hc]
        omega
    pending := fun u c hu => by
      replace hu : Function.update s.callers t (.added ccb) u = .added c := hu
      by_cases hut : u = t
      · rw [hut, Function.update_self] at hu
        cases hu
        exact List.mem_append_right _ (List.mem_singleton.mpr rfl)
      · rw [Function.update_of_ne hut] at hu
        exact List.mem_append_left _ (h.pending u c hu)
    returned := fun c hc => List.mem_append_left _ (h.returned c hc) }

theorem triggerOk_unlock (h : TriggerOk s) (hs : s.step (.unlock t) = some s') :
    TriggerOk s' := by
  obtain ⟨ccb, hpc, rfl⟩ := step_unlock hs
  have hholds : s.callers t ≠ .outside := by simp [hpc]
  obtain ⟨-, hwaiting⟩ := h.held t hholds
  have hnone : ∀ u, (s.goto t .outside { s.event with inProgress := 0 }).callers u = .outside := by
    intro u
    by_cases hu : u = t
    · simp [Trigger.goto, hu]
    · by_contra hne
      exact hu (h.one u t ((goto_outside hne).resolve_left hu) hholds)
  exact {
    one := fun u v hu => absurd (hnone u) hu
    held := fun u hu => absurd (hnone u) hu
    word := by
      show WordOk 0 s.trigger
      rw [hwaiting]
      exact .inl rfl
    empty := h.empty
    served := h.served
    serial := h.serial
    pending := fun u c hu => by
      have hout := hnone u
      rw [hu] at hout
      cases hout
    returned := fun c hc => by
      rcases List.mem_append.mp hc with hc | hc
      · exact h.returned c hc
      · rw [List.mem_singleton.mp hc]
        exact h.pending t ccb hpc }

/-- No installer is at work once the trigger is. -/
theorem callers_outside (h : TriggerOk s) (hpc : s.trigger ≠ .waiting) (t : Nat) :
    s.callers t = .outside := by
  by_contra hne
  exact hpc (h.held t hne).2

theorem triggerOk_fire (h : TriggerOk s) (hfree : s.event.inProgress = 0)
    (hs : s.step .fire = some s') : TriggerOk s' := by
  simp only [Trigger.step] at hs
  split at hs
  · cases hs
    have hnone := outside_of_word h (by omega)
    exact { h with
      held := fun u hu => absurd (hnone u) hu
      word := rfl
      empty := fun hend => by simp at hend }
  · cases hs

theorem triggerOk_next (h : TriggerOk s) (hs : s.step .next = some s') : TriggerOk s' := by
  simp only [Trigger.step] at hs
  split at hs
  · rename_i hpc
    have hout := callers_outside h (by simp [hpc])
    have hword : s.event.inProgress = 1 := by
      have := h.word
      rwa [hpc] at this
    unfold Coevent.getNextCocallback at hs
    rw [if_neg (by omega)] at hs
    cases hq : s.event.callbacks with
    | nil =>
      simp only [hq, Option.some.injEq] at hs
      subst hs
      exact { h with
        held := fun u hu => absurd (hout u) hu
        word := hword
        empty := fun _ => hq }
    | cons ccb rest =>
      simp only [hq, Option.some.injEq] at hs
      subst hs
      have hserved := h.served
      rw [hq] at hserved
      exact { h with
        held := fun u hu => absurd (hout u) hu
        word := hword
        empty := fun hend => by simp at hend
        served := hserved.pop }
  · cases hs

theorem triggerOk_returned (h : TriggerOk s) (hs : s.step .returned = some s') :
    TriggerOk s' := by
  simp only [Trigger.step] at hs
  split at hs
  · rename_i hpc
    have hout := callers_outside h (by simp [hpc])
    have hword := h.word
    rw [hpc] at hword
    cases hs
    exact { h with
      held := fun u hu => absurd (hout u) hu
      word := hword
      empty := fun hend => by simp at hend }
  · cases hs

theorem triggerOk_finish (h : TriggerOk s) (hs : s.step .finish = some s') : TriggerOk s' := by
  simp only [Trigger.step] at hs
  split at hs
  · rename_i hpc
    have hout := callers_outside h (by simp [hpc])
    have hempty := h.empty (.inl hpc)
    cases hs
    exact { h with
      held := fun u hu => absurd (hout u) hu
      word := rfl
      empty := fun _ => hempty }
  · cases hs

theorem triggerOk_init (pid : Nat) : TriggerOk (initTrigger pid) where
  one _ _ hu := absurd rfl hu
  held _ hu := absurd rfl hu
  word := .inl rfl
  empty _ := rfl
  served := .nil
  serial _ hmem := by simp [initTrigger] at hmem
  pending _ _ hpc := by simp [initTrigger] at hpc
  returned _ hmem := by simp [initTrigger] at hmem

theorem triggerOk_reach {pid : Nat}
    (h : Reach Trigger.step FiresUnlocked (initTrigger pid) s) : TriggerOk s := by
  induction h with
  | init => exact triggerOk_init pid
  | next a _ hcond hs ih =>
    cases a with
    | lock t func args => exact triggerOk_lock ih hs
    | add t => exact triggerOk_add ih hs
    | unlock t => exact triggerOk_unlock ih hs
    | fire => exact triggerOk_fire ih hcond hs
    | next => exact triggerOk_next ih hs
    | returned => exact triggerOk_returned ih hs
    | finish => exact triggerOk_finish ih hs

/-- An event that is finished stays so under the steps of installers. -/
theorem finished_of_installer {a : TriggerAct} (h : TriggerOk s) (ha : ByInstaller a)
    (hs : s.step a = some s') (hword : s.event.inProgress = -1) : s'.event.inProgress = -1 := by
  have hnone := outside_of_word h (by omega)
  cases a with
  | lock t func args =>
    obtain ⟨-, hfree, -⟩ := step_lock hs
    omega
  | add t =>
    obtain ⟨-, -, hpc, -⟩ := step_add hs
    exact absurd (hnone t) hpc
  | unlock t =>
    obtain ⟨ccb, hpc, -⟩ := step_unlock hs
    rw [hnone t] at hpc
    cases hpc
  | fire | next | returned | finish => exact ha.elim

/-- When the trigger starts while the lock is free, each callback that was installed has been
executed exactly once or still waits on an event that is not finished. A finished event has no
callbacks, the lock has one holder at most, and no installer frees a finished event. -/
theorem callbacks_run_exactly_once {pid : Nat}
    (h : Reach Trigger.step FiresUnlocked (initTrigger pid) s) :
    (∀ ccb ∈ s.installed, (s.executed.count ccb = 1 ∧ ccb ∉ s.event.callbacks) ∨
      (s.executed.count ccb = 0 ∧ ccb ∈ s.event.callbacks ∧ s.event.inProgress ≠ -1)) ∧
    (s.event.inProgress = -1 → s.event.callbacks = []) ∧
    (∀ a b, Holds s a → Holds s b → a = b) ∧
    ∀ a s', ByInstaller a → s.step a = some s' → s.event.inProgress = -1 →
      s'.event.inProgress = -1 := by
  have hok := triggerOk_reach h
  have hempty : s.event.inProgress = -1 → s.event.callbacks = [] := by
    intro hword
    have hpc := hok.word
    rw [hword] at hpc
    cases htrigger : s.trigger with
    | finished => exact hok.empty (.inr htrigger)
    | waiting | draining | executing | drained => simp [htrigger, WordOk] at hpc
  refine ⟨fun ccb hccb => ?_, hempty, fun a b ha hb => ?_, fun a s' ha hs hword =>
    finished_of_installer hok ha hs hword⟩
  · rcases hok.served.once (hok.returned ccb hccb) with hdone | ⟨hcount, hmem⟩
    · exact .inl hdone
    · refine .inr ⟨hcount, hmem, fun hword => ?_⟩
      rw [hempty hword] at hmem
      cases hmem
  · cases a with
    | installer t =>
      cases b with
      | installer u => rw [hok.one t u ha hb]
      | trigger => exact absurd (hok.held t ha).2 hb.1
    | trigger =>
      cases b with
      | installer u => exact absurd (hok.held u hb).2 ha.1
      | trigger => rfl

end Steps

/-- A client function, and its arguments. -/
def funcA : Ptr := ⟨0, 1⟩
def argsA : CocallbackArgs := .data 0 ⟨0, 0⟩

/-- A request installs its callback, and the trigger runs it. -/
theorem callbacks_run_exactly_once_one :
    ∃ s, Reach Trigger.step FiresUnlocked (initTrigger 1) s ∧ s.event.inProgress = -1 ∧
      s.installed = [⟨0, funcA, argsA⟩] ∧ s.executed.count ⟨0, funcA, argsA⟩ = 1 := by
  let acts : List TriggerAct := [.lock 0 funcA argsA, .add 0, .unlock 0, .fire, .next, .returned,
    .next, .finish]
  obtain ⟨s, hs⟩ : ∃ s, runFrom Trigger.step (initTrigger 1) acts = some s :=
    Option.isSome_iff_exists.mp (by decide)
  have hcheck (s : Trigger) (a : TriggerAct)
      (h : decide (a = .fire → s.event.inProgress = 0) = true) : FiresUnlocked s a := by
    cases a with
    | fire => exact of_decide_eq_true h rfl
    | _ => trivial
  have hreach : Reach Trigger.step FiresUnlocked (initTrigger 1) s :=
    reach_of_checkAll hcheck acts _ _ (by decide) hs
  have hword : s.event.inProgress = -1 :=
    eq_of_map_runFrom (fun s => s.event.inProgress) hs (by decide)
  have hinstalled : s.installed = [⟨0, funcA, argsA⟩] :=
    eq_of_map_runFrom (fun s => s.installed) hs (by decide)
  obtain ⟨honce, -⟩ := callbacks_run_exactly_once hreach
  refine ⟨s, hreach, hword, hinstalled, ?_⟩
  rcases honce ⟨0, funcA, argsA⟩ (by simp [hinstalled]) with hdone | ⟨-, -, hnot⟩
  · exact hdone.1
  · exact absurd hword hnot

/-- The trigger starts while a request holds the lock. Both hold it then, the trigger finishes
without the callback, and the request queues it, frees the event and returns success. -/
theorem install_lost_in_trigger :
    (∃ s, Reach Trigger.step anyAct (initTrigger 1) s ∧ Holds s (.installer 0) ∧
      Holds s .trigger) ∧
    ∃ s s', Reach Trigger.step anyAct (initTrigger 1) s ∧ s.event.inProgress = -1 ∧
      s.step (.unlock 0) = some s' ∧ s'.event.inProgress = 0 ∧ s'.trigger = .finished ∧
      s'.installed = [⟨0, funcA, argsA⟩] ∧ s'.executed = [] := by
  constructor
  · obtain ⟨s, hs, hreach⟩ := exists_reach_of_isSome Trigger.step
      [.lock 0 funcA argsA, .fire] (initTrigger 1) (by decide)
    have hcaller : s.callers 0 = .locked funcA argsA :=
      eq_of_map_runFrom (fun s => s.callers 0) hs (by decide)
    have htrigger : s.trigger = .draining :=
      eq_of_map_runFrom (fun s => s.trigger) hs (by decide)
    exact ⟨s, hreach, by simp [Holds, hcaller], by simp [Holds, htrigger]⟩
  · obtain ⟨s, hs, hreach⟩ := exists_reach_of_isSome Trigger.step
      [.lock 0 funcA argsA, .fire, .next, .finish, .add 0] (initTrigger 1) (by decide)
    have hword : s.event.inProgress = -1 :=
      eq_of_map_runFrom (fun s => s.event.inProgress) hs (by decide)
    have hafter : (s.step (.unlock 0)).map (fun s' =>
        (s'.event.inProgress, s'.trigger, s'.installed, s'.executed)) =
        some (0, .finished, [⟨0, funcA, argsA⟩], []) :=
      eq_of_map_runFrom (fun s => (s.step (.unlock 0)).map fun s' =>
        (s'.event.inProgress, s'.trigger, s'.installed, s'.executed)) hs (by decide)
    obtain ⟨s', hs', heq⟩ := Option.map_eq_some_iff.mp hafter
    simp only [Prod.mk.injEq] at heq
    obtain ⟨hfree, hfinished, hinstalled, hexecuted⟩ := heq
    exact ⟨s, s', hreach, hword, hs', hfree, hfinished, hinstalled, hexecuted⟩

end Comsg.Proofs.Coeventd
