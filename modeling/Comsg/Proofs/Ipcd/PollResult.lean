import Comsg.Proofs.Ipcd.Listeners

/-!
# `Comsg.Proofs.Ipcd.PollResult`: what a slow poll returns

`wait_for_events` registers its listeners in order, sleeps, and takes those out again that no
delivery has removed. `Stage` says how far a poll has come: which of its listeners can be in a list.

* `pollOk_reach`: every entry of a list is a listener that its poll has registered and neither a
  delivery nor the poll has taken out, and every record is fresh or has an event.
* `delivered_run`: what a record says, a delivery of the same poll has written.

The sleep is one call of `pthread_cond_wait`, which may return without a signal. Then a poll without
a timeout has no event, and its last assertion fails (`spurious_return_aborts`). `poll_result_right`
says that the result is right in all other runs.
-/

set_option autoImplicit false

namespace Comsg.Proofs.Ipcd

open Comsg.Lib
open Comsg.Ipcd

/-! ### Stages -/

/-- How far a slow poll has come: the listeners from `lo` up to `hi` can be in a list. -/
structure Stage where
  args : PollArgs
  lo : Nat
  hi : Nat

/-- The stage of a thread in `wait_for_events`. -/
def pollStage : Pc → Option Stage
  -- The records have been initialised, and nothing is registered yet.
  | .pollLock args => some ⟨args, 0, 0⟩
  | .register args k | .release _ _ (.register args k) => some ⟨args, 0, min k args.coports.length⟩
  | .registerAcquire args k _ | .registerLocked args k _ =>
    some ⟨args, 0, min k args.coports.length⟩
  | .asleep args | .relock args => some ⟨args, 0, args.coports.length⟩
  -- Before entry `k` the poll has looked at its listeners already.
  | .unregister args k | .release _ _ (.unregister args k) => some ⟨args, k, args.coports.length⟩
  | .unregisterAcquire args k _ | .unregisterLocked args k _ => some ⟨args, k, args.coports.length⟩
  | .pollFinish args => some ⟨args, args.coports.length, args.coports.length⟩
  | _ => none

/-- How the stage of thread `t` changes in one step. -/
inductive StageStep (s s' : Sys) (t : Nat) : Option Stage → Option Stage → Prop
  | same (o : Option Stage) : StageStep s s' t o o
  | start (args : PollArgs) (htimeout : args.timeout ≠ 0)
      (hfresh : s'.listener t = fun _ => .fresh) :
      StageStep s s' t none (some ⟨args, 0, 0⟩)
  | registered (args : PollArgs) (k : Nat) (target : PollTarget)
      (hpc : s.pc (.client t) = .registerLocked args k target) :
      StageStep s s' t (some ⟨args, 0, min k args.coports.length⟩)
        (some ⟨args, 0, min (k + 1) args.coports.length⟩)
  | skipped (args : PollArgs) (k : Nat) (hremoved : (s.listener t k).removed = true) :
      StageStep s s' t (some ⟨args, k, args.coports.length⟩)
        (some ⟨args, k + 1, args.coports.length⟩)
  | unregistered (args : PollArgs) (k : Nat) (target : PollTarget)
      (hpc : s.pc (.client t) = .unregisterLocked args k target)
      (hgone : (s'.port target.coport).listeners =
        (s.port target.coport).listeners.erase ⟨t, k, target.events⟩) :
      StageStep s s' t (some ⟨args, k, args.coports.length⟩)
        (some ⟨args, k + 1, args.coports.length⟩)
  | emptied (args : PollArgs) (k : Nat) (h : args.coports.length ≤ k) :
      StageStep s s' t (some ⟨args, k, args.coports.length⟩)
        (some ⟨args, args.coports.length, args.coports.length⟩)
  | done (args : PollArgs) :
      StageStep s s' t (some ⟨args, args.coports.length, args.coports.length⟩) none

section Stages
variable {s s' : Sys} {x : Party} {c c' : Pc} {p t : Nat}

theorem pollOf_of_stage {st : Stage} (h : pollStage c = some st) : pollOf c = some st.args := by
  cases c with
  | release q status after =>
    cases after with
    | register args k | unregister args k =>
      cases h
      rfl
    | _ => cases h
  | pollLock | register | registerAcquire | registerLocked | asleep | relock | unregister
  | unregisterAcquire | unregisterLocked | pollFinish =>
    cases h
    rfl
  | _ => cases h

theorem Moves.stageStep (h : Moves s x c c') (hx : x = .client t)
    (hown : ∀ args, pollOf c = some args → args.poller = t) :
    StageStep s s' t (pollStage c) (pollStage c') := by
  cases h with
  | call u c r hr =>
    have hentry : pollStage (r.entry u) = none := by cases r <;> rfl
    rw [hentry]
    obtain rfl | ⟨a, rfl⟩ := hr <;> exact .same none
  -- The flag is the one in the record of the poll's own thread.
  | unregisterSkip x args k hremoved => exact .skipped args k (hown args rfl ▸ hremoved)
  | pollFinished x args rs => exact .done args
  | _ => exact .same _

theorem Acquires.pollStage_eq {found lock : CoportStatus} (h : Acquires p found lock c c') :
    pollStage c' = pollStage c := by
  cases h <;> rfl

theorem pollStage_resume (status : CoportStatus) (after : After) :
    pollStage (Sys.resume p after) = pollStage (.release p status after) := by
  cases after <;> rfl

theorem Locks.pollStage_eq (h : Locks s x c c') : pollStage c' = pollStage c := by
  cases h with
  | poll x args => simp [pollStage]
  | _ => rfl

theorem Unlocks.stageStep (h : Unlocks c c') : StageStep s s' t (pollStage c) (pollStage c') := by
  cases h with
  | sleep args i hi =>
    -- The registration loop ends after the last coport.
    have hlen : args.coports.length ≤ i := List.getElem?_eq_none_iff.mp hi
    have heq : pollStage (.register args i) = pollStage (.asleep args) := by
      simp [pollStage, Nat.min_eq_right hlen]
    rw [heq]
    exact .same _
  | finish args i hi => exact .emptied args i (List.getElem?_eq_none_iff.mp hi)
  | _ => exact .same none

theorem Works.stageStep {port : Coport} (h : Works (s.port p) p c c' port)
    (hpc : s.pc (.client t) = c) (hown : ∀ args, pollOf c = some args → args.poller = t)
    (hport : s'.port = Function.update s.port p port) :
    StageStep s s' t (pollStage c) (pollStage c') := by
  cases h with
  | register args k target htarget => exact .registered args k target hpc
  | unregister args k target htarget =>
    refine .unregistered args k target hpc ?_
    rw [hport, htarget, Function.update_self, Coport.removeListener, hown args rfl]
  | _ => exact .same none

/-- What a step does to the stage of a thread. -/
theorem stageStep_effect (hok : PollerOk s) (h : Effect s x s') (t : Nat) :
    StageStep s s' t (pollStage (s.pc (.client t))) (pollStage (s'.pc (.client t))) := by
  by_cases hx : x = .client t
  · subst hx
    have hown : ∀ args, pollOf (s.pc (.client t)) = some args → args.poller = t :=
      fun args hargs => (Party.client.inj (hok _ args hargs)).symm
    cases h with
    | stay | assertion => exact .same _
    | move c h =>
      rw [Sys.goto_pc, Function.update_self]
      exact h.stageStep rfl hown
    | acquire q found lock c h hst =>
      rw [Sys.goto_pc, Function.update_self, h.pollStage_eq]
      exact .same _
    | work q c port h =>
      rw [Sys.goto_pc, Function.update_self]
      exact h.stageStep rfl hown rfl
    | release q status after h =>
      rw [Sys.goto_pc, Function.update_self, h, pollStage_resume status after]
      exact .same _
    | lock c h hm =>
      rw [Sys.goto_pc, Function.update_self, h.pollStage_eq]
      exact .same _
    | unlock c h =>
      rw [Sys.goto_pc, Function.update_self]
      exact h.stageStep
    | freshListeners args i rs h htimeout =>
      rw [Sys.goto_pc, Function.update_self, h]
      obtain rfl : args.poller = t := hown args (h ▸ rfl)
      exact .start args htimeout (by simp)
    | read q index h =>
      rw [Sys.goto_pc, Function.update_self, h]
      exact .same none
    | openDone q a h hst =>
      rw [Sys.goto_pc, Function.update_self, h]
      exact .same none
    | put q a r h hq =>
      rw [Sys.goto_pc, Function.update_self, h]
      exact .same none
    -- The rest are steps of notifiers.
    | skip n i nEvents hx => cases hx
    | deliver n i nEvents q status hx => cases hx
    | wakeNotifier n hx => cases hx
  · rw [effect_pc_of_ne h (Ne.symm hx)]
    exact .same _

end Stages

/-! ### Lists and records -/

/-- What a step of thread `x` does to the lists and the records. -/
inductive ListStep (s : Sys) (x : Party) (s' : Sys) : Prop
  | same (hport : ∀ q, (s'.port q).listeners = (s.port q).listeners)
      (hl : s'.listener = s.listener)
  | fresh (t : Nat) (hstage : pollStage (s.pc (.client t)) = none)
      (hport : ∀ q, (s'.port q).listeners = (s.port q).listeners)
      (hl : s'.listener = Function.update s.listener t fun _ => .fresh)
  | added (args : PollArgs) (k : Nat) (target : PollTarget)
      (hpc : s.pc (.client args.poller) = .registerLocked args k target)
      (hnext : pollStage (s'.pc (.client args.poller)) =
        some ⟨args, 0, min (k + 1) args.coports.length⟩)
      (hport : ∀ q, (s'.port q).listeners = if q = target.coport
        then ⟨args.poller, k, target.events⟩ :: (s.port q).listeners else (s.port q).listeners)
      (hl : s'.listener = s.listener)
  | taken (args : PollArgs) (k : Nat) (target : PollTarget)
      (hpc : s.pc (.client args.poller) = .unregisterLocked args k target)
      (hport : ∀ q, (s'.port q).listeners = if q = target.coport
        then (s.port q).listeners.erase ⟨args.poller, k, target.events⟩ else (s.port q).listeners)
      (hl : s'.listener = s.listener)
  | delivered (n : Fin nCopollNotifiers) (i nEvents p : Nat) (status : CoportStatus)
      (hx : x = .notifier n) (hpc : s.pc x = .deliverLocked i nEvents p status)
      (hport : ∀ q, (s'.port q).listeners = if q = p
        then (s.port q).listeners.filter fun l => !(s.port q).matched l else (s.port q).listeners)
      (hl : s'.listener = Sys.deliverTo s.listener (s.port p))

section Lists
variable {s s' : Sys} {x : Party} {c c' : Pc} {p t : Nat}

/-- The lists after a step on one port. -/
theorem list_of_update {port : Coport} (hport : s'.port = Function.update s.port p port) (q : Nat) :
    (s'.port q).listeners = if q = p then port.listeners else (s.port q).listeners := by
  rw [hport]
  by_cases hq : q = p
  · subst hq
    rw [Function.update_self, if_pos rfl]
  · rw [Function.update_of_ne hq, if_neg hq]

/-- A step on one port that leaves its list alone. -/
theorem list_of_same {port : Coport} (hport : s'.port = Function.update s.port p port)
    (hlist : port.listeners = (s.port p).listeners) (q : Nat) :
    (s'.port q).listeners = (s.port q).listeners := by
  rw [list_of_update hport q]
  split
  next hq => rw [hlist, hq]
  next => rfl

theorem Works.listStep {port : Coport} (hok : PollerOk s)
    (h : Works (s.port p) p (s.pc x) c port) (hport : s'.port = Function.update s.port p port)
    (hpc : s'.pc x = c) (hl : s'.listener = s.listener) : ListStep s x s' := by
  have hown {args : PollArgs} (hargs : pollOf (s.pc x) = some args) : x = .client args.poller :=
    hok x args hargs
  generalize hc : s.pc x = c₀ at h hown
  cases h with
  | register args k target htarget =>
    obtain rfl := hown rfl
    refine .added args k target hc (by rw [hpc]; rfl) (fun q => ?_) hl
    rw [list_of_update hport q, htarget]
    split
    next hq => rw [hq, Coport.addListener]
    next => rfl
  | unregister args k target htarget =>
    refine .taken args k target (hown rfl ▸ hc) (fun q => ?_) hl
    rw [list_of_update hport q, htarget]
    split
    next hq => rw [hq, Coport.removeListener]
    next => rfl
  | _ => exact .same (list_of_same hport rfl) hl

theorem listStep_effect (hok : PollerOk s) (h : Effect s x s') : ListStep s x s' := by
  cases h with
  | acquire q found lock c h hst => exact .same (list_of_same rfl rfl) rfl
  | work q c port h => exact h.listStep hok rfl (by simp) rfl
  | release q status after h => exact .same (list_of_same rfl rfl) rfl
  | read q index h => exact .same (list_of_same rfl rfl) rfl
  | openDone q a h hst => exact .same (list_of_same rfl rfl) rfl
  | freshListeners args i rs h htimeout =>
    have hx : x = .client args.poller := hok x args (h ▸ rfl)
    refine .fresh args.poller ?_ (fun _ => rfl) rfl
    rw [← hx, h]
    rfl
  | put q a r h hq => exact .same (by simp) (by simp)
  | deliver n i nEvents q status hx h hm =>
    refine .delivered n i nEvents q status hx h (fun r => (list_of_update rfl r).trans ?_) rfl
    split
    next hr => rw [hr, Coport.deliver]
    next => rfl
  | _ => exact .same (fun _ => rfl) rfl

end Lists

/-- The entry of the list of port `q` is a listener that its poll has registered, and that neither
a delivery nor the poll has taken out. -/
def EntryOk (s : Sys) (q : Nat) (e : ListenEntry) : Prop :=
  ∃ st, pollStage (s.pc (.client e.poller)) = some st ∧ st.lo ≤ e.index ∧ e.index < st.hi ∧
    st.args.coports[e.index]? = some ⟨q, e.events⟩ ∧ (s.listener e.poller e.index).removed = false

/-- The record of listener `j` is fresh, or a delivery has written an event to it. -/
def RecordOk (st : Stage) (j : Nat) (l : Listener) : Prop :=
  l = .fresh ∨ (j < st.hi ∧ l.removed = true ∧ l.revent ≠ noevent)

/-- A thread that is about to take a listener out has the coport of the listener. -/
def TargetOk : Pc → Prop
  | .unregisterAcquire args k target | .unregisterLocked args k target =>
    args.coports[k]? = some target
  | _ => True

/-- The lists and the records of the polls. -/
structure PollOk (s : Sys) : Prop where
  nodup : ∀ q, (s.port q).listeners.Nodup
  entry : ∀ q, ∀ e ∈ (s.port q).listeners, EntryOk s q e
  record : ∀ t st, pollStage (s.pc (.client t)) = some st → ∀ j, RecordOk st j (s.listener t j)
  target : ∀ x, TargetOk (s.pc x)

section PollOk
variable {s s' : Sys} {x : Party} {c c' : Pc} {p q t : Nat} {e : ListenEntry} {st st' : Stage}

/-- An entry that stays in its list with its record is still within the stage of its poll. -/
theorem EntryOk.step (h : EntryOk s q e)
    (hstage : StageStep s s' e.poller (pollStage (s.pc (.client e.poller)))
      (pollStage (s'.pc (.client e.poller))))
    (hremoved : (s'.listener e.poller e.index).removed = false)
    (hstays : ∀ args target, s.pc (.client e.poller) = .unregisterLocked args e.index target →
      (s'.port target.coport).listeners ≠
        (s.port target.coport).listeners.erase ⟨e.poller, e.index, target.events⟩) :
    EntryOk s' q e := by
  obtain ⟨st, hst, hlo, hhi, hcoport, hfalse⟩ := h
  rw [hst] at hstage
  generalize hst' : pollStage (s'.pc (.client e.poller)) = o at hstage
  cases hstage with
  | same => exact ⟨st, hst', hlo, hhi, hcoport, hremoved⟩
  | registered args k target hpc =>
    refine ⟨_, hst', hlo, ?_, hcoport, hremoved⟩
    simp only at hhi ⊢
    omega
  | skipped args k hskip =>
    -- The poll skips a listener that is marked as removed, and this one is not.
    have hne : e.index ≠ k := by
      rintro rfl
      rw [hfalse] at hskip
      cases hskip
    exact ⟨_, hst', Nat.lt_of_le_of_ne hlo (Ne.symm hne), hhi, hcoport, hremoved⟩
  | unregistered args k target hpc hgone =>
    have hne : e.index ≠ k := by
      rintro rfl
      exact hstays args target hpc hgone
    exact ⟨_, hst', Nat.lt_of_le_of_ne hlo (Ne.symm hne), hhi, hcoport, hremoved⟩
  -- No entry is within an empty stage.
  | emptied args k hle =>
    simp only at hlo hhi
    omega
  | done args =>
    simp only at hlo hhi
    omega

/-- A poll that goes on has come from an earlier stage of itself, or it has just begun. -/
theorem StageStep.back {o : Option Stage} (h : StageStep s s' t o (some st')) :
    (s'.listener t = (fun _ => .fresh) ∧ st'.args.timeout ≠ 0) ∨
      ∃ st, o = some st ∧ st.args = st'.args ∧ st.hi ≤ st'.hi := by
  cases h with
  | same => exact .inr ⟨st', rfl, rfl, Nat.le_refl _⟩
  | start args htimeout hfresh => exact .inl ⟨hfresh, htimeout⟩
  | registered args k target hpc =>
    refine .inr ⟨_, rfl, rfl, ?_⟩
    simp only
    omega
  | skipped args k hskip => exact .inr ⟨_, rfl, rfl, Nat.le_refl _⟩
  | unregistered args k target hpc => exact .inr ⟨_, rfl, rfl, Nat.le_refl _⟩
  | emptied args k hle => exact .inr ⟨_, rfl, rfl, Nat.le_refl _⟩

/-! The coport of the listener that is taken out. -/

theorem Moves.targetOk (h : Moves s x c c') : TargetOk c' := by
  cases h with
  | call u c r hr => cases r <;> trivial
  | unregisterNext x args k target ht hr => exact ht
  | _ => trivial

theorem Acquires.targetOk {found lock : CoportStatus} (h : Acquires p found lock c c')
    (hc : TargetOk c) : TargetOk c' := by
  cases h with
  | unregister args k target ht => exact hc
  | _ => trivial

theorem targetOk_effect (hok : ∀ y, TargetOk (s.pc y)) (h : Effect s x s') :
    ∀ y, TargetOk (s'.pc y) := by
  intro y
  by_cases hy : y = x
  · subst hy
    cases h with
    | stay | assertion => exact hok y
    | move c h =>
      rw [Sys.goto_pc, Function.update_self]
      exact h.targetOk
    | acquire q found lock c h hst =>
      rw [Sys.goto_pc, Function.update_self]
      exact h.targetOk (hok y)
    | work q c port h =>
      rw [Sys.goto_pc, Function.update_self]
      generalize s.pc y = c₀ at h
      cases h <;> trivial
    | release q status after h =>
      rw [Sys.goto_pc, Function.update_self]
      cases after <;> trivial
    | lock c h hm =>
      rw [Sys.goto_pc, Function.update_self]
      generalize s.pc y = c₀ at h
      cases h <;> trivial
    | unlock c h =>
      rw [Sys.goto_pc, Function.update_self]
      generalize s.pc y = c₀ at h
      cases h <;> trivial
    | _ =>
      rw [Sys.goto_pc, Function.update_self]
      trivial
  · rw [effect_pc_of_ne h hy]
    exact hok y

/-! Each part of the invariant. -/

/-- The poll of an entry that is about to take out the listener with its index takes out this
entry. -/
theorem PollOk.eq_of_unregister (hok : PollOk s) (he : e ∈ (s.port q).listeners)
    {args : PollArgs} {target : PollTarget}
    (hpc : s.pc (.client e.poller) = .unregisterLocked args e.index target) :
    target = ⟨q, e.events⟩ := by
  obtain ⟨st, hst, -, -, hcoport, -⟩ := hok.entry q e he
  have htarget := hok.target (.client e.poller)
  rw [hpc] at hst htarget
  cases hst
  exact Option.some.inj (htarget.symm.trans hcoport)

/-- An entry that stays in its list, when the step keeps the flag of its record. -/
theorem PollOk.entry_step (hok : PollOk s) (hown : PollerOk s) (h : Effect s x s')
    (he : e ∈ (s.port q).listeners) (he' : e ∈ (s'.port q).listeners)
    (hremoved : (s'.listener e.poller e.index).removed = (s.listener e.poller e.index).removed) :
    EntryOk s' q e := by
  have hentry := hok.entry q e he
  refine hentry.step (stageStep_effect hown h e.poller) ?_ fun args target hpc hgone => ?_
  · obtain ⟨st, -, -, -, -, hfalse⟩ := hentry
    rw [hremoved, hfalse]
  · -- The entry that the poll takes out was in the list once only.
    obtain rfl := hok.eq_of_unregister he hpc
    rw [hgone] at he'
    exact (List.Nodup.not_mem_erase (hok.nodup q)) he'

/-- Two entries with one record are the same, in the same list. -/
theorem PollOk.entry_unique (hok : PollOk s) {l : ListenEntry} (he : e ∈ (s.port q).listeners)
    (hl : l ∈ (s.port p).listeners) (hpoller : l.poller = e.poller) (hindex : l.index = e.index) :
    p = q ∧ l = e := by
  obtain ⟨st, hst, -, -, hcoport, -⟩ := hok.entry q e he
  obtain ⟨st', hst', -, -, hcoport', -⟩ := hok.entry p l hl
  rw [hpoller] at hst'
  obtain rfl : st = st' := Option.some.inj (hst.symm.trans hst')
  rw [hindex] at hcoport'
  have heq := Option.some.inj (hcoport.symm.trans hcoport')
  obtain ⟨hqp, hevents⟩ := PollTarget.mk.inj heq
  refine ⟨hqp.symm, ?_⟩
  cases l
  cases e
  simp_all

/-- A delivery leaves the records of the entries alone that it leaves in the lists. -/
theorem PollOk.deliverTo_eq (hok : PollOk s) (he : e ∈ (s.port q).listeners)
    (hstays : q = p → (s.port p).matched e = false) :
    Sys.deliverTo s.listener (s.port p) e.poller e.index = s.listener e.poller e.index := by
  unfold Sys.deliverTo
  split
  next l hfind =>
    have hl := List.mem_of_find?_eq_some hfind
    have hmatch := List.find?_some hfind
    simp only [decide_eq_true_eq] at hmatch
    obtain ⟨hpoller, hindex, hmatched⟩ := hmatch
    obtain ⟨rfl, rfl⟩ := hok.entry_unique he hl hpoller hindex
    rw [hstays rfl] at hmatched
    cases hmatched
  next => rfl

/-- A listener that is about to be registered is in no list. -/
theorem PollOk.not_mem_of_register (hok : PollOk s) {args : PollArgs} {k : Nat}
    {target : PollTarget} {events : CoportEventmask}
    (hpc : s.pc (.client args.poller) = .registerLocked args k target) :
    ⟨args.poller, k, events⟩ ∉ (s.port q).listeners := by
  intro he
  obtain ⟨st, hst, -, hhi, -, -⟩ := hok.entry q _ he
  rw [hpc] at hst
  cases hst
  simp only at hhi
  omega

theorem PollOk.nodup_step (hok : PollOk s) (h : ListStep s x s') (q : Nat) :
    (s'.port q).listeners.Nodup := by
  cases h with
  | same hport hl => exact hport q ▸ hok.nodup q
  | fresh t hstage hport hl => exact hport q ▸ hok.nodup q
  | added args k target hpc hnext hport hl =>
    rw [hport q]
    split
    · exact List.nodup_cons.mpr ⟨hok.not_mem_of_register hpc, hok.nodup q⟩
    · exact hok.nodup q
  | taken args k target hpc hport hl =>
    rw [hport q]
    split
    · exact (hok.nodup q).erase _
    · exact hok.nodup q
  | delivered n i nEvents p status hx hpc hport hl =>
    rw [hport q]
    split
    · exact (hok.nodup q).filter _
    · exact hok.nodup q

/-- The listener that is registered now. -/
theorem PollOk.entry_registered (hok : PollOk s) (hat : PollsOk s) {args : PollArgs} {k : Nat}
    {target : PollTarget} (hpc : s.pc (.client args.poller) = .registerLocked args k target)
    (hnext : pollStage (s'.pc (.client args.poller)) =
      some ⟨args, 0, min (k + 1) args.coports.length⟩)
    (hl : s'.listener = s.listener) :
    EntryOk s' target.coport ⟨args.poller, k, target.events⟩ := by
  have htarget : args.coports[k]? = some target := by
    have hregister := hat (.client args.poller)
    rw [hpc] at hregister
    exact hregister.2
  have hlt : k < args.coports.length := (List.getElem?_eq_some_iff.mp htarget).1
  -- No delivery has written to the record, since only those below `k` are registered.
  have hremoved : (s.listener args.poller k).removed = false := by
    obtain hfresh | ⟨hhi, -⟩ := hok.record args.poller _ (by rw [hpc]; rfl) k
    · rw [hfresh]
      rfl
    · simp only at hhi
      omega
  refine ⟨_, hnext, Nat.zero_le k, ?_, htarget, by rw [hl, hremoved]⟩
  simp only
  omega

theorem PollOk.entry_effect (hok : PollOk s) (hown : PollerOk s) (hat : PollsOk s)
    (h : Effect s x s') (he : e ∈ (s'.port q).listeners) : EntryOk s' q e := by
  have hkeep (hmem : e ∈ (s.port q).listeners) (hl : s'.listener = s.listener) : EntryOk s' q e :=
    hok.entry_step hown h hmem he (by rw [hl])
  cases listStep_effect hown h with
  | same hport hl => exact hkeep (hport q ▸ he) hl
  | fresh t hstage hport hl =>
    have hmem : e ∈ (s.port q).listeners := hport q ▸ he
    refine hok.entry_step hown h hmem he ?_
    -- The thread that begins to wait has no entries.
    have hne : e.poller ≠ t := by
      rintro rfl
      obtain ⟨st, hst, -⟩ := hok.entry q e hmem
      rw [hstage] at hst
      cases hst
    rw [hl, Function.update_of_ne hne]
  | added args k target hpc hnext hport hl =>
    have he' := he
    rw [hport q] at he'
    split at he'
    next hq =>
      obtain rfl | hmem := List.mem_cons.mp he'
      · subst hq
        exact hok.entry_registered hat hpc hnext hl
      · exact hkeep hmem hl
    next => exact hkeep he' hl
  | taken args k target hpc hport hl =>
    have he' := he
    rw [hport q] at he'
    split at he'
    · exact hkeep (List.mem_of_mem_erase he') hl
    · exact hkeep he' hl
  | delivered n i nEvents p status hx hpc hport hl =>
    have he' := he
    rw [hport q] at he'
    have hmem : e ∈ (s.port q).listeners := by
      split at he'
      · exact (List.mem_filter.mp he').1
      · exact he'
    refine hok.entry_step hown h hmem he ?_
    rw [hl, hok.deliverTo_eq hmem fun hq => ?_]
    rw [if_pos hq] at he'
    simpa [hq] using (List.mem_filter.mp he').2

/-- Only a delivery writes to the records of a poll. -/
theorem record_step (hown : PollerOk s) (h : Effect s x s')
    (hst : pollStage (s.pc (.client t)) = some st) (j : Nat) :
    s'.listener t j = s.listener t j ∨ ∃ n i nEvents p status l, x = .notifier n ∧
      s.pc x = .deliverLocked i nEvents p status ∧ l ∈ (s.port p).listeners ∧ l.poller = t ∧
      l.index = j ∧ Meets (s.port p).event l.events ∧
      s'.listener t j = ⟨(s.port p).event &&& l.events, true⟩ := by
  cases listStep_effect hown h with
  | same hport hl => exact .inl (by rw [hl])
  | fresh u hnone hport hl =>
    have hne : t ≠ u := by
      rintro rfl
      rw [hnone] at hst
      cases hst
    exact .inl (by rw [hl, Function.update_of_ne hne])
  | added args k target hpc hnext hport hl => exact .inl (by rw [hl])
  | taken args k target hpc hport hl => exact .inl (by rw [hl])
  | delivered n i nEvents p status hx hpc hport hl =>
    rw [hl]
    unfold Sys.deliverTo
    split
    next l hfind =>
      have hmatch := List.find?_some hfind
      simp only [decide_eq_true_eq] at hmatch
      obtain ⟨hpoller, hindex, hmatched⟩ := hmatch
      have hmeets : Meets (s.port p).event l.events := by simpa [Coport.matched] using hmatched
      exact .inr ⟨n, i, nEvents, p, status, l, hx, hpc, List.mem_of_find?_eq_some hfind, hpoller,
        hindex, hmeets, rfl⟩
    next => exact .inl rfl

theorem PollOk.record_effect (hok : PollOk s) (hown : PollerOk s) (h : Effect s x s')
    (hst' : pollStage (s'.pc (.client t)) = some st') (j : Nat) :
    RecordOk st' j (s'.listener t j) := by
  have hstage := stageStep_effect hown h t
  rw [hst'] at hstage
  obtain ⟨hfresh, -⟩ | ⟨st, hst, -, hhi⟩ := hstage.back
  · exact .inl (by rw [hfresh])
  · obtain heq | ⟨n, i, nEvents, p, status, l, -, -, hmem, rfl, rfl, hmeets, heq⟩ :=
      record_step hown h hst j
    · rw [heq]
      obtain hfresh | ⟨hlt, hrecord⟩ := hok.record t st hst j
      · exact .inl hfresh
      · exact .inr ⟨Nat.lt_of_lt_of_le hlt hhi, hrecord⟩
    · -- The delivery found the listener in a list, so it is within the stage.
      obtain ⟨st₀, hst₀, -, hlt, -, -⟩ := hok.entry p l hmem
      obtain rfl : st = st₀ := Option.some.inj (hst.symm.trans hst₀)
      rw [heq]
      exact .inr ⟨Nat.lt_of_lt_of_le hlt hhi, rfl, hmeets⟩

theorem pollOk_effect (hown : PollerOk s) (hat : PollsOk s) (hok : PollOk s) (h : Effect s x s') :
    PollOk s' where
  nodup := hok.nodup_step (listStep_effect hown h)
  entry := fun _ _ he => hok.entry_effect hown hat h he
  record := fun _ _ hst j => hok.record_effect hown h hst j
  target := targetOk_effect hok.target h

theorem pollOk_init : PollOk initSys where
  nodup := fun _ => List.nodup_nil
  entry := nofun
  record := nofun
  target := fun x => by cases x <;> trivial

theorem pollOk_reach {ok : Sys → Act → Prop} (h : Reach sysStep ok initSys s) : PollOk s :=
  h.invariant pollOk_init fun _ _ _ hr hok _ hs =>
    pollOk_effect (pollerOk_reach hr) (pollAt_reach hr) hok (sysStep_effect hs)

end PollOk

/-! ### Deliveries -/

/-- The step `b` from `u` delivers to listener `j` of thread `t`, and `revent` is what the coport
has then of the events that were asked for. -/
def DeliversTo (u : Sys) (b : Act) (t j : Nat) (target : PollTarget) (revent : CoportEventmask) :
    Prop :=
  (∃ n i nEvents status, b.party = .notifier n ∧
    u.pc b.party = .deliverLocked i nEvents target.coport status) ∧
  ⟨t, j, target.events⟩ ∈ (u.port target.coport).listeners ∧
  revent = (u.port target.coport).event &&& target.events

/-- A step of the run delivers to listener `j` of thread `t`, which makes no request after it. -/
def DeliveredIn (ok : Sys → Act → Prop) (acts : List Act) (t j : Nat) (target : PollTarget)
    (revent : CoportEventmask) : Prop :=
  ∃ before b after u u', acts = before ++ b :: after ∧ Run sysStep ok initSys before u ∧
    sysStep u b = some u' ∧ DeliversTo u b t j target revent ∧ ∀ r, Act.call t r ∉ after

section Deliveries
variable {s s' : Sys} {t j : Nat} {st : Stage} {ok : Sys → Act → Prop} {acts : List Act}
  {target : PollTarget} {revent : CoportEventmask}

theorem DeliveredIn.concat (h : DeliveredIn ok acts t j target revent) {a : Act}
    (ha : ∀ r, a ≠ .call t r) : DeliveredIn ok (acts ++ [a]) t j target revent := by
  obtain ⟨before, b, after, u, u', rfl, hrun, hs, hdelivers, hcall⟩ := h
  refine ⟨before, b, after ++ [a], u, u', by simp, hrun, hs, hdelivers, fun r hr => ?_⟩
  obtain hr | hr := List.mem_append.mp hr
  · exact hcall r hr
  · exact ha r (List.mem_singleton.mp hr).symm

/-- A request begins outside of `wait_for_events`. -/
theorem pollStage_of_call {r : Request} (hs : sysStep s (.call t r) = some s') :
    pollStage (s'.pc (.client t)) = none := by
  have hpc : s'.pc (.client t) = r.entry t := by
    unfold sysStep at hs
    split at hs
    · cases hs
    · dsimp only at hs
      split at hs
      · cases hs
        simp
      · cases hs
        simp
      · cases hs
  rw [hpc]
  cases r <;> rfl

/-- What a record of a poll says, a delivery of the same poll has written. -/
theorem delivered_run (h : Run sysStep ok initSys acts s)
    (hst : pollStage (s.pc (.client t)) = some st) (hremoved : (s.listener t j).removed = true) :
    ∃ target, st.args.coports[j]? = some target ∧
      DeliveredIn ok acts t j target (s.listener t j).revent := by
  induction h generalizing st with
  | init => cases hst
  | @next acts u u' a hrun hok hs ih =>
    have hreach := hrun.reach
    have hown := pollerOk_reach hreach
    have heffect := sysStep_effect hs
    -- A thread that waits makes no request.
    have hcall : ∀ r, a ≠ .call t r := by
      rintro r rfl
      rw [pollStage_of_call hs] at hst
      cases hst
    have hstage := stageStep_effect hown heffect t
    rw [hst] at hstage
    obtain ⟨hfresh, -⟩ | ⟨st₀, hst₀, hargs, -⟩ := hstage.back
    · rw [hfresh] at hremoved
      cases hremoved
    · obtain heq | ⟨n, i, nEvents, p, status, l, hx, hpc, hmem, rfl, rfl, -, heq⟩ :=
        record_step hown heffect hst₀ j
      · rw [heq] at hremoved ⊢
        obtain ⟨target, htarget, hdelivered⟩ := ih hst₀ hremoved
        exact ⟨target, hargs ▸ htarget, hdelivered.concat hcall⟩
      · -- The delivery is this step.
        obtain ⟨st₁, hst₁, -, -, hcoport, -⟩ := (pollOk_reach hreach).entry p l hmem
        obtain rfl : st₀ = st₁ := Option.some.inj (hst₀.symm.trans hst₁)
        refine ⟨⟨p, l.events⟩, hargs ▸ hcoport, acts, a, [], u, u', rfl, hrun, hs,
          ⟨⟨n, i, nEvents, status, hx, hpc⟩, hmem, by rw [heq]⟩, nofun⟩

end Deliveries

/-! ### The end of a poll -/

/-- The poll of a thread that has returned from `copoll_wait`. -/
def wokenPoll : Pc → Option PollArgs
  | .relock args | .unregister args _ | .release _ _ (.unregister args _) => some args
  | .unregisterAcquire args _ _ | .unregisterLocked args _ _ | .pollFinish args => some args
  | _ => none

/-- One of the listeners of the poll has an event. -/
def HasEvent (s : Sys) (args : PollArgs) : Prop :=
  ∃ j, j < args.coports.length ∧ (s.listener args.poller j).removed = true

/-- The step is not a return from `pthread_cond_wait` without a delivery, in a poll without a
timeout. -/
def SignalledReturn (s : Sys) (a : Act) : Prop :=
  ∀ t args, a = .wake (.client t) → s.pc (.client t) = .asleep args → args.timeout < 0 →
    HasEvent s args

section End
variable {s s' : Sys} {x : Party} {c c' : Pc} {p t : Nat} {args : PollArgs} {st : Stage}

theorem pollStage_of_woken (h : wokenPoll c = some args) :
    ∃ st, pollStage c = some st ∧ st.args = args := by
  cases c with
  | release q status after =>
    cases after with
    | unregister args k =>
      cases h
      exact ⟨_, rfl, rfl⟩
    | _ => cases h
  | relock | unregister | unregisterAcquire | unregisterLocked | pollFinish =>
    cases h
    exact ⟨_, rfl, rfl⟩
  | _ => cases h

theorem Moves.woken (h : Moves s x c c') (hc : wokenPoll c' = some args) :
    wokenPoll c = some args ∨ c = .asleep args := by
  cases h with
  | call u c r hr => cases r <;> cases hc
  | wakePoller u args' =>
    cases hc
    exact .inr rfl
  | unregisterSkip x args' i hr => exact .inl hc
  | unregisterNext x args' i target ht hr => exact .inl hc
  | _ => cases hc

theorem Acquires.woken {found lock : CoportStatus} (h : Acquires p found lock c c') :
    wokenPoll c' = wokenPoll c := by
  cases h <;> rfl

theorem Works.woken {port port' : Coport} (h : Works port p c c' port') :
    wokenPoll c' = wokenPoll c := by
  cases h <;> rfl

theorem wokenPoll_resume (status : CoportStatus) (after : After) :
    wokenPoll (Sys.resume p after) = wokenPoll (.release p status after) := by
  cases after <;> rfl

theorem Locks.woken (h : Locks s x c c') : wokenPoll c' = wokenPoll c := by
  cases h <;> rfl

theorem Unlocks.woken (h : Unlocks c c') (hc : wokenPoll c' = some args) :
    wokenPoll c = some args := by
  cases h with
  | finish args' i hi => exact hc
  | _ => cases hc

/-- A poll gets behind its sleep by a return from it. -/
theorem woken_effect (h : Effect s x s') (hc : wokenPoll (s'.pc x) = some args) :
    wokenPoll (s.pc x) = some args ∨ s.pc x = .asleep args := by
  cases h with
  | stay | assertion => exact .inl hc
  | move c h =>
    rw [Sys.goto_pc, Function.update_self] at hc
    exact h.woken hc
  | acquire q found lock c h hst =>
    rw [Sys.goto_pc, Function.update_self, h.woken] at hc
    exact .inl hc
  | work q c port h =>
    rw [Sys.goto_pc, Function.update_self, h.woken] at hc
    exact .inl hc
  | release q status after h =>
    rw [Sys.goto_pc, Function.update_self, wokenPoll_resume status after] at hc
    exact .inl (h ▸ hc)
  | lock c h hm =>
    rw [Sys.goto_pc, Function.update_self, h.woken] at hc
    exact .inl hc
  | unlock c h =>
    rw [Sys.goto_pc, Function.update_self] at hc
    exact .inl (h.woken hc)
  | _ =>
    rw [Sys.goto_pc, Function.update_self] at hc
    cases hc

/-- A thread leaves its sleep by a return from the condition variable. -/
theorem act_of_asleep {a : Act} (hs : sysStep s a = some s') (hx : a.party = .client t)
    (hpc : s.pc (.client t) = .asleep args) : a = .wake (.client t) := by
  unfold sysStep at hs
  split at hs
  · cases hs
  · cases a with
    | call u r =>
      cases hx
      simp [hpc] at hs
    | run y =>
      cases hx
      simp [Sys.runStep, hpc, Sys.clientStep] at hs
    | wake y => rw [← hx, Act.party]

/-- What a poll has, it keeps. -/
theorem HasEvent.step (h : HasEvent s args) (hown : PollerOk s) (he : Effect s x s')
    (hst : pollStage (s.pc (.client args.poller)) = some st) : HasEvent s' args := by
  obtain ⟨j, hj, hremoved⟩ := h
  refine ⟨j, hj, ?_⟩
  obtain heq | ⟨n, i, nEvents, p, status, l, -, -, -, -, -, -, heq⟩ := record_step hown he hst j
  · rw [heq, hremoved]
  · rw [heq]

/-- A poll without a timeout has an event when it has got behind its sleep. -/
def WokenOk (s : Sys) : Prop :=
  ∀ x args, wokenPoll (s.pc x) = some args → args.timeout < 0 → HasEvent s args

theorem wokenOk_step (hown : PollerOk s) (hok : WokenOk s) {a : Act}
    (hsignalled : SignalledReturn s a) (hs : sysStep s a = some s') : WokenOk s' := by
  intro x args hx htimeout
  have he := sysStep_effect hs
  -- The thread was behind its sleep before, or this step is its return.
  have hback : wokenPoll (s.pc x) = some args ∨ (x = a.party ∧ s.pc x = .asleep args) := by
    by_cases hparty : x = a.party
    · subst hparty
      exact (woken_effect he hx).imp_right fun hpc => ⟨rfl, hpc⟩
    · rw [effect_pc_of_ne he hparty] at hx
      exact .inl hx
  obtain hwoken | ⟨hparty, hpc⟩ := hback
  · obtain ⟨st, hst, rfl⟩ := pollStage_of_woken hwoken
    obtain rfl : x = .client st.args.poller := hown x st.args (pollOf_of_stage hst)
    exact (hok _ _ hwoken htimeout).step hown he hst
  · obtain rfl : x = .client args.poller := hown x args (by rw [hpc]; rfl)
    have hwake := act_of_asleep hs hparty.symm hpc
    exact (hsignalled _ _ hwake hpc htimeout).step hown he (by rw [hpc]; rfl)

theorem wokenOk_reach (h : Reach sysStep SignalledReturn initSys s) : WokenOk s := by
  refine h.invariant ?_ fun _ _ _ hr hok hsignalled hs =>
    wokenOk_step (pollerOk_reach hr) hok hsignalled hs
  intro x args hx
  cases x <;> cases hx

/-- A poll that waits has a timeout other than 0. -/
def TimeoutOk (s : Sys) : Prop :=
  ∀ t st, pollStage (s.pc (.client t)) = some st → st.args.timeout ≠ 0

theorem timeoutOk_reach {ok : Sys → Act → Prop} (h : Reach sysStep ok initSys s) :
    TimeoutOk s := by
  refine h.invariant nofun fun s a s' hr hok _ hs t st hst => ?_
  have hstage := stageStep_effect (pollerOk_reach hr) (sysStep_effect hs) t
  rw [hst] at hstage
  obtain ⟨-, htimeout⟩ | ⟨st₀, hst₀, hargs, -⟩ := hstage.back
  · exact htimeout
  · exact hargs ▸ hok t st₀ hst₀

/-- The loop at the end of `wait_for_events` counts the entries with an event. -/
theorem collectRevents_eq (listener : Nat → Listener) (i n : Nat) :
    collectRevents listener i n =
      ((List.range' i n).map fun j => (listener j).revent,
        matchedEvents ((List.range' i n).map fun j => (listener j).revent)) := by
  induction n generalizing i with
  | zero => rfl
  | succ n ih =>
    simp only [collectRevents, ih, List.range'_succ, List.map_cons, matchedEvents, List.countP_cons,
      decide_eq_true_eq]
    split <;> rfl

end End

/-- What `wait_for_events` returns at the end of a run, with its loop variables `revents` and
`matched`. -/
structure PollResult (ok : Sys → Act → Prop) (acts : List Act) (s' : Sys) (t : Nat)
    (args : PollArgs) (revents : List CoportEventmask) (matched : Nat) : Prop where
  /-- The assertion holds, and the poll is answered. -/
  running : s'.aborted = none
  answered : s'.pc (.client t) = .answered (.polled revents)
  length : revents.length = args.coports.length
  /-- The count is the number of entries with an event. -/
  count : matched = (revents.filter fun revent => revent ≠ noevent).length
  /-- Every event was asked for, and was the coport's when it was delivered. -/
  subset : ∀ (j : Nat) (target : PollTarget) (revent : CoportEventmask),
    args.coports[j]? = some target → revents[j]? = some revent → revent &&& target.events = revent
  delivered : ∀ (j : Nat) (target : PollTarget) (revent : CoportEventmask),
    args.coports[j]? = some target → revents[j]? = some revent →
      revent = noevent ∨ DeliveredIn ok acts t j target revent
  /-- No listener of the thread is in a list. -/
  gone : ∀ q, ∀ e ∈ (s'.port q).listeners, e.poller ≠ t
  waited : args.timeout < 0 → 1 ≤ matched

section Result
variable {s s' : Sys} {t : Nat} {args : PollArgs} {acts : List Act}

/-- The `revents` of a poll that ends. -/
def collected (s : Sys) (t : Nat) (args : PollArgs) : List CoportEventmask :=
  (List.range' 0 args.coports.length).map fun j => (s.listener t j).revent

/-- Each of them is what a delivery has written, or there is none. -/
theorem collected_cases {ok : Sys → Act → Prop} (h : Run sysStep ok initSys acts s)
    (hpc : s.pc (.client t) = .pollFinish args) {j : Nat} {target : PollTarget}
    {revent : CoportEventmask} (htarget : args.coports[j]? = some target)
    (hrevent : (collected s t args)[j]? = some revent) :
    revent = noevent ∨ DeliveredIn ok acts t j target revent := by
  have hlt : j < args.coports.length := (List.getElem?_eq_some_iff.mp htarget).1
  obtain rfl : (s.listener t j).revent = revent := by simpa [collected, hlt] using hrevent
  have hst : pollStage (s.pc (.client t)) =
      some ⟨args, args.coports.length, args.coports.length⟩ := by
    rw [hpc]
    rfl
  obtain hfresh | ⟨-, hremoved, -⟩ := (pollOk_reach h.reach).record t _ hst j
  · left
    rw [hfresh]
    rfl
  · obtain ⟨target', htarget', hdelivered⟩ := delivered_run h hst hremoved
    obtain rfl : target = target' := Option.some.inj (htarget.symm.trans htarget')
    exact .inr hdelivered

/-- A poll that has an event counts it. -/
theorem matched_of_hasEvent (hok : PollOk s) (hpc : s.pc (.client t) = .pollFinish args)
    (hpoller : args.poller = t) (h : HasEvent s args) : 1 ≤ matchedEvents (collected s t args) := by
  obtain ⟨j, hj, hremoved⟩ := h
  rw [hpoller] at hremoved
  refine List.countP_pos_iff.mpr ⟨(s.listener t j).revent, ?_, ?_⟩
  · exact List.mem_map_of_mem (by simpa using hj)
  · obtain hfresh | ⟨-, -, hrevent⟩ := hok.record t _ (by rw [hpc]; rfl) j
    · rw [hfresh] at hremoved
      cases hremoved
    · simpa using hrevent

/-- A poll whose assertion holds is answered. -/
theorem answered_of_assert (hpc : s.pc (.client t) = .pollFinish args) (hpoller : args.poller = t)
    (hassert : matchedEvents (collected s t args) ≠ 0 ∨ 0 < args.timeout)
    (hs : sysStep s (.run (.client t)) = some s') :
    s' = s.goto (.client t) (.answered (.polled (collected s t args))) := by
  have hsame : ((List.range args.coports.length).map fun j =>
      (s.listener args.poller j).revent) = collected s t args := by
    rw [collected, List.range_eq_range', hpoller]
  simp only [sysStep, not_aborted_of_sysStep hs, Option.isSome_none, Bool.false_eq_true, if_false,
    Sys.runStep, hpc, Sys.clientStep, Sys.pollFinishStep, hsame, if_pos hassert,
    Option.some.injEq] at hs
  exact hs.symm

/-- A poll that ends has no listener in a list. -/
theorem not_listed_of_finish (hok : PollOk s) (hpc : s.pc (.client t) = .pollFinish args) {q : Nat}
    {e : ListenEntry} (he : e ∈ (s.port q).listeners) : e.poller ≠ t := by
  intro hpoller
  obtain ⟨st, hst, hlo, hhi, -⟩ := hok.entry q e he
  rw [hpoller, hpc] at hst
  cases hst
  simp only at hlo hhi
  omega

/-- The result of a slow poll is right in every run in which no `pthread_cond_wait` of a poll
without a timeout returns before a delivery. -/
theorem poll_result_right (h : Run sysStep SignalledReturn initSys acts s)
    (hpc : s.pc (.client t) = .pollFinish args)
    (hs : sysStep s (.run (.client t)) = some s') :
    PollResult SignalledReturn acts s' t args
      (collectRevents (s.listener t) 0 args.coports.length).1
      (collectRevents (s.listener t) 0 args.coports.length).2 := by
  have hok := pollOk_reach h.reach
  have hpoller : args.poller = t :=
    (Party.client.inj (pollerOk_reach h.reach _ args (by rw [hpc]; rfl))).symm
  have hcollect : collectRevents (s.listener t) 0 args.coports.length =
      (collected s t args, matchedEvents (collected s t args)) := collectRevents_eq _ _ _
  rw [hcollect]
  have hmatched : args.timeout < 0 → 1 ≤ matchedEvents (collected s t args) := by
    intro htimeout
    have hevent := wokenOk_reach h.reach _ args (by rw [hpc]; rfl) htimeout
    exact matched_of_hasEvent hok hpc hpoller hevent
  have htimeout : args.timeout ≠ 0 := timeoutOk_reach h.reach t _ (by rw [hpc]; rfl)
  have hrunning := not_aborted_of_sysStep hs
  -- The assertion can fail for a negative timeout only, and then there is an event.
  obtain rfl := answered_of_assert hpc hpoller (by omega) hs
  exact {
    running := hrunning
    answered := by simp
    length := by simp [collected]
    count := List.countP_eq_length_filter
    subset := by
      intro j target revent htarget hrevent
      obtain rfl | ⟨before, b, after, u, u', -, -, -, ⟨-, -, rfl⟩, -⟩ :=
        collected_cases h hpc htarget hrevent
      · simp [noevent]
      · rw [BitVec.and_assoc, BitVec.and_self]
    delivered := fun j target revent => collected_cases h hpc
    gone := fun q e he => not_listed_of_finish hok hpc he
    waited := hmatched }

end Result

/-- A test for `SignalledReturn`. -/
def isSignalledReturn (s : Sys) : Act → Bool
  | .wake (.client t) =>
    match s.pc (.client t) with
    | .asleep args =>
      decide (0 ≤ args.timeout) ||
        (List.range args.coports.length).any fun j => (s.listener args.poller j).removed
    | _ => true
  | _ => true

theorem signalledReturn_of_check (s : Sys) (a : Act) (h : isSignalledReturn s a = true) :
    SignalledReturn s a := by
  rintro t args rfl hpc htimeout
  simp only [isSignalledReturn, hpc, Bool.or_eq_true, decide_eq_true_eq, List.any_eq_true,
    List.mem_range] at h
  obtain hle | ⟨j, hj, hremoved⟩ := h
  · omega
  · exact ⟨j, hj, hremoved⟩

/-- Client 0 waits for `COPOLL_IN` on port 0. Client 1 sends, the notifier delivers, and client 0
wakes up. -/
def wakeAfterSend : List Act :=
  sleepFor copollIn ++ .call 1 (.cosend 0 oneByte 1) :: runs (.client 1) 7 ++
  .wake notifier0 :: runs notifier0 6 ++ .wake (.client 0) :: runs (.client 0) 3

/-- The poll returns `COPOLL_IN` for its one coport. -/
theorem poll_result_right_send :
    ∃ s s', Run sysStep SignalledReturn initSys wakeAfterSend s ∧
      s.pc (.client 0) = .pollFinish pollIn ∧ sysStep s (.run (.client 0)) = some s' ∧
      PollResult SignalledReturn wakeAfterSend s' 0 pollIn [copollIn] 1 := by
  obtain ⟨s, hrun⟩ := Option.isSome_iff_exists.mp
    (show (runFrom sysStep initSys wakeAfterSend).isSome = true from rfl)
  have hacts : Run sysStep SignalledReturn initSys wakeAfterSend s :=
    run_of_checkAll signalledReturn_of_check wakeAfterSend initSys s rfl hrun
  cases hrun
  exact ⟨_, _, hacts, rfl, rfl, poll_result_right hacts rfl rfl⟩

/-- Client 0 waits for `COPOLL_IN` on port 0, and its `pthread_cond_wait` returns. -/
def wakeAtOnce : List Act := sleepFor copollIn ++ .wake (.client 0) :: runs (.client 0) 6

/-- A return from `pthread_cond_wait` that nobody has signalled: the assertion of `wait_for_events`
fails, and ipcd is gone. -/
theorem spurious_return_aborts :
    ∃ s s', Run sysStep anyAct initSys wakeAtOnce s ∧ s.pc (.client 0) = .pollFinish pollIn ∧
      sysStep s (.run (.client 0)) = some s' ∧ s'.aborted = some .matchedEvents ∧
      ¬PollResult anyAct wakeAtOnce s' 0 pollIn (collectRevents (s.listener 0) 0 1).1
        (collectRevents (s.listener 0) 0 1).2 := by
  obtain ⟨s, hrun⟩ := Option.isSome_iff_exists.mp
    (show (runFrom sysStep initSys wakeAtOnce).isSome = true from rfl)
  have hacts := run_of_runFrom wakeAtOnce initSys s hrun
  cases hrun
  refine ⟨_, _, hacts, rfl, rfl, rfl, fun h => ?_⟩
  cases h.running

end Comsg.Proofs.Ipcd
