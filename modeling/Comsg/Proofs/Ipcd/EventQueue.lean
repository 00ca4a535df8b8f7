import Comsg.Ipcd.CopollDeliver

/-!
# `Comsg.Proofs.Ipcd.EventQueue`: what a notifier's queue can hold

The counter `next_event` of a notifier is the index of the next free entry and the bound of
the delivery loop. `put_coport_event` advances it, and nothing ever sets it back.
`queueExact_iff` says what follows: the queue works, and each coport is passed on once by the
first wake-up after it was queued, exactly as long as no notifier has been given more than
`COPORT_EVENTQUEUE_LEN` events over the whole run. How many of them were already delivered
does not matter. `queue_exhausted` is a run with one undelivered event at a time that ends in
the failed assertion.

The proof describes the array of a notifier (`Holds`): the entries of the events delivered
are NULL, then come the undelivered ones, in order, then the entries never used.
-/

set_option autoImplicit false

namespace Comsg.Proofs.Ipcd

open Comsg.Lib
open Comsg.Ipcd

/-- The coports given to notifier `i`, in order. -/
def putsTo (i : Fin nCopollNotifiers) (acts : List NotifierAct) : List Nat :=
  acts.filterMap fun
    | .put coport => if getCoportNotifierIndex coport = i then some coport else none
    | .wake _     => none

/-- The coports given to notifier `i` since its last wake-up, in order. -/
def undelivered (i : Fin nCopollNotifiers) (acts : List NotifierAct) : List Nat :=
  acts.foldl (fun queue a => match a with
    | .put coport => if getCoportNotifierIndex coport = i then queue ++ [coport] else queue
    | .wake j     => if j = i then [] else queue) []

/-- The coports that the wake-ups of notifier `i` passed to `process_coport_event`, in
order. -/
def passedBy (i : Fin nCopollNotifiers) (log : List (NotifierAct × List Nat)) : List Nat :=
  (log.filter fun e => e.1 == .wake i).flatMap Prod.snd

/-- At every point of the run no assertion has failed, and for each notifier the coports
passed on, followed by those given since its last wake-up, are all the coports given. So each
coport is passed on once, by the first wake-up after it. -/
def QueueExact (acts : List NotifierAct) : Prop :=
  ∀ before, before <+: acts → ∃ notifiers log,
    runLog notifierStep initNotifiers before = some (notifiers, log) ∧
      ∀ i, passedBy i log ++ undelivered i before = putsTo i before

theorem putsTo_put (i : Fin nCopollNotifiers) (acts : List NotifierAct) (coport : Nat) :
    putsTo i (acts ++ [NotifierAct.put coport])
      = putsTo i acts ++ if getCoportNotifierIndex coport = i then [coport] else [] := by
  by_cases h : getCoportNotifierIndex coport = i <;> simp [putsTo, h]

theorem putsTo_wake (i j : Fin nCopollNotifiers) (acts : List NotifierAct) :
    putsTo i (acts ++ [NotifierAct.wake j]) = putsTo i acts := by
  simp [putsTo]

/-- A run gives a notifier at least the coports that a prefix of it gives. -/
theorem putsTo_length_le (i : Fin nCopollNotifiers) (before rest : List NotifierAct) :
    (putsTo i before).length ≤ (putsTo i (before ++ rest)).length := by
  rw [putsTo, putsTo, List.filterMap_append, List.length_append]
  exact Nat.le_add_right _ _

theorem undelivered_put (i : Fin nCopollNotifiers) (acts : List NotifierAct) (coport : Nat) :
    undelivered i (acts ++ [NotifierAct.put coport])
      = undelivered i acts ++ if getCoportNotifierIndex coport = i then [coport] else [] := by
  by_cases h : getCoportNotifierIndex coport = i <;> simp [undelivered, h]

theorem undelivered_wake (i j : Fin nCopollNotifiers) (acts : List NotifierAct) :
    undelivered i (acts ++ [NotifierAct.wake j]) = if j = i then [] else undelivered i acts := by
  simp [undelivered]

theorem passedBy_put (i : Fin nCopollNotifiers) (log : List (NotifierAct × List Nat))
    (coport : Nat) (passed : List Nat) :
    passedBy i (log ++ [(NotifierAct.put coport, passed)]) = passedBy i log := by
  simp [passedBy]

theorem passedBy_wake (i j : Fin nCopollNotifiers) (log : List (NotifierAct × List Nat))
    (passed : List Nat) :
    passedBy i (log ++ [(NotifierAct.wake j, passed)])
      = passedBy i log ++ if j = i then passed else [] := by
  by_cases h : j = i <;> simp [passedBy, h]

/-! ### The array of a notifier -/

/-- The array after `done` delivered events with `queue` undelivered. -/
def layout (done : Nat) (queue : List Nat) : List (Option Nat) :=
  List.replicate done none ++ queue.map some ++
    List.replicate (coportEventqueueLen - (done + queue.length)) none

/-- The notifier has `done` delivered events and `queue` undelivered. -/
structure Holds (n : CopollNotifier) (done : Nat) (queue : List Nat) : Prop where
  next_eq : n.nextEvent = done + queue.length
  next_le : n.nextEvent ≤ coportEventqueueLen
  array : n.eventQueue = layout done queue

theorem holds_init : Holds .init 0 [] := ⟨rfl, Nat.zero_le _, rfl⟩

/-- A put below the bound fills the next entry. -/
theorem Holds.put {n : CopollNotifier} {done : Nat} {queue : List Nat} (h : Holds n done queue)
    (coport : Nat) (hlt : n.nextEvent < coportEventqueueLen) :
    ∃ n', n.putCoportEvent coport = some n' ∧ Holds n' done (queue ++ [coport]) := by
  refine ⟨_, by rw [CopollNotifier.putCoportEvent, if_pos hlt], ⟨?_, Nat.succ_le_of_lt hlt, ?_⟩⟩
  · simp [h.next_eq, Nat.add_assoc]
  · -- The first entry never used is the one at `next_event`.
    have hsub : coportEventqueueLen - (done + queue.length)
        = coportEventqueueLen - (done + (queue.length + 1)) + 1 := by
      have := h.next_eq
      omega
    have hpos : (List.replicate done none ++ queue.map some).length = n.nextEvent := by
      simp [h.next_eq]
    simp only [h.array, layout, hsub, List.replicate_succ, ← hpos, List.set_append_right,
      Nat.le_refl, Nat.sub_self, List.set_cons_zero]
    simp

/-- The delivery loop over NULL entries passes nothing on. -/
private theorem deliverFrom_none :
    ∀ (k : Nat) (before rest : List (Option Nat)) (after : Nat),
      CopollNotifier.deliverFrom (before ++ List.replicate k none ++ rest) before.length (k + after)
        = CopollNotifier.deliverFrom (before ++ List.replicate k none ++ rest)
            (before.length + k) after := by
  intro k
  induction k with
  | zero => intro before rest after; simp
  | succ k ih =>
    intro before rest after
    -- The loop stores NULL in the entry again. It moves from the block to `before`.
    have hget : (before ++ List.replicate (k + 1) none ++ rest)[before.length]? = some none := by
      simp [List.replicate_succ]
    have hset : (before ++ List.replicate (k + 1) none ++ rest).set before.length none
        = (before ++ [none]) ++ List.replicate k none ++ rest := by
      simp [List.replicate_succ]
    have hrec := ih (before ++ [none]) rest after
    simp only [List.length_append, List.length_singleton] at hrec
    rw [show k + 1 + after = (k + after) + 1 by omega, CopollNotifier.deliverFrom, hget, hset,
      hrec, show before.length + 1 + k = before.length + (k + 1) by omega]
    simp [List.replicate_succ]

/-- The delivery loop over a block of coports passes them on in order and leaves NULL. -/
private theorem deliverFrom_some :
    ∀ (queue : List Nat) (before rest : List (Option Nat)),
      CopollNotifier.deliverFrom (before ++ queue.map some ++ rest) before.length queue.length
        = (before ++ List.replicate queue.length none ++ rest, queue) := by
  intro queue
  induction queue with
  | nil => intro before rest; simp [CopollNotifier.deliverFrom]
  | cons c queue ih =>
    intro before rest
    have hget : (before ++ (c :: queue).map some ++ rest)[before.length]? = some (some c) := by
      simp
    have hset : (before ++ (c :: queue).map some ++ rest).set before.length none
        = (before ++ [none]) ++ queue.map some ++ rest := by
      simp
    have hrec := ih (before ++ [none]) rest
    simp only [List.length_append, List.length_singleton] at hrec
    rw [List.length_cons, CopollNotifier.deliverFrom, hget, hset, hrec]
    simp [List.replicate_succ]

/-- A wake-up passes on what is undelivered. -/
theorem Holds.deliver {n : CopollNotifier} {done : Nat} {queue : List Nat}
    (h : Holds n done queue) :
    n.copollDeliver.2 = queue ∧ Holds n.copollDeliver.1 (done + queue.length) [] := by
  have hloop : CopollNotifier.deliverFrom n.eventQueue 0 n.nextEvent
      = (layout (done + queue.length) [], queue) := by
    rw [h.array, h.next_eq, layout, List.append_assoc]
    -- The loop starts at entry 0 each time and passes over all that was ever delivered.
    have hskip := deliverFrom_none done [] (queue.map some ++
      List.replicate (coportEventqueueLen - (done + queue.length)) none) queue.length
    simp only [List.nil_append, List.length_nil, Nat.zero_add] at hskip
    have hsome := deliverFrom_some queue (List.replicate done none)
      (List.replicate (coportEventqueueLen - (done + queue.length)) none)
    simp only [List.length_replicate, List.append_assoc] at hsome hskip
    rw [hskip, hsome]
    simp [layout, List.replicate_append_replicate, Nat.add_assoc]
  refine ⟨by simp [CopollNotifier.copollDeliver, hloop], ?_, ?_, ?_⟩
  · simpa [CopollNotifier.copollDeliver] using h.next_eq
  · simpa [CopollNotifier.copollDeliver] using h.next_le
  · simp [CopollNotifier.copollDeliver, hloop]

/-! ### Runs -/

/-- The notifiers after the actions `acts` with the log `log`. -/
structure InStep (notifiers : Fin nCopollNotifiers → CopollNotifier) (acts : List NotifierAct)
    (log : List (NotifierAct × List Nat)) : Prop where
  holds : ∀ i, Holds (notifiers i) (passedBy i log).length (undelivered i acts)
  exact : ∀ i, passedBy i log ++ undelivered i acts = putsTo i acts

/-- The counter of a notifier counts the coports it was given since the start. -/
theorem InStep.nextEvent_eq {notifiers : Fin nCopollNotifiers → CopollNotifier}
    {acts : List NotifierAct} {log : List (NotifierAct × List Nat)}
    (h : InStep notifiers acts log) (i : Fin nCopollNotifiers) :
    (notifiers i).nextEvent = (putsTo i acts).length := by
  rw [(h.holds i).next_eq, ← h.exact i, List.length_append]

theorem inStep_init : InStep initNotifiers [] [] :=
  ⟨fun _ => holds_init, fun _ => rfl⟩

/-- A put that finds room keeps the log in step. -/
theorem InStep.put {notifiers : Fin nCopollNotifiers → CopollNotifier}
    {acts : List NotifierAct} {log : List (NotifierAct × List Nat)}
    (h : InStep notifiers acts log) (coport : Nat)
    (hroom : (putsTo (getCoportNotifierIndex coport) acts).length < coportEventqueueLen) :
    ∃ notifiers', notifierStep notifiers (.put coport) = some (notifiers', []) ∧
      InStep notifiers' (acts ++ [NotifierAct.put coport])
        (log ++ [(NotifierAct.put coport, [])]) := by
  have hlt : (notifiers (getCoportNotifierIndex coport)).nextEvent < coportEventqueueLen := by
    rw [h.nextEvent_eq]
    exact hroom
  obtain ⟨n', hput, hn'⟩ := (h.holds (getCoportNotifierIndex coport)).put coport hlt
  refine ⟨Function.update notifiers (getCoportNotifierIndex coport) n',
    by simp [notifierStep, hput], ?_, ?_⟩
  · intro i
    rw [passedBy_put, undelivered_put]
    by_cases hi : getCoportNotifierIndex coport = i
    · subst hi
      rw [Function.update_self, if_pos rfl]
      exact hn'
    · rw [Function.update_of_ne (Ne.symm hi), if_neg hi, List.append_nil]
      exact h.holds i
  · intro i
    rw [passedBy_put, undelivered_put, putsTo_put, ← List.append_assoc, h.exact i]

/-- A wake-up keeps the log in step. -/
theorem InStep.wake {notifiers : Fin nCopollNotifiers → CopollNotifier}
    {acts : List NotifierAct} {log : List (NotifierAct × List Nat)}
    (h : InStep notifiers acts log) (j : Fin nCopollNotifiers) :
    ∃ notifiers' passed, notifierStep notifiers (.wake j) = some (notifiers', passed) ∧
      InStep notifiers' (acts ++ [NotifierAct.wake j]) (log ++ [(NotifierAct.wake j, passed)]) := by
  obtain ⟨hpassed, hn'⟩ := (h.holds j).deliver
  refine ⟨Function.update notifiers j (notifiers j).copollDeliver.1, undelivered j acts,
    by simp [notifierStep, hpassed], ?_, ?_⟩
  · intro i
    rw [passedBy_wake, undelivered_wake]
    by_cases hi : j = i
    · subst hi
      rw [Function.update_self, if_pos rfl, if_pos rfl, List.length_append]
      exact hn'
    · rw [Function.update_of_ne (Ne.symm hi), if_neg hi, if_neg hi, List.append_nil]
      exact h.holds i
  · intro i
    rw [passedBy_wake, undelivered_wake, putsTo_wake]
    by_cases hi : j = i
    · subst hi
      rw [if_pos rfl, if_pos rfl, List.append_nil]
      exact h.exact j
    · rw [if_neg hi, if_neg hi, List.append_nil]
      exact h.exact i

/-- A run that gives no notifier more events than its array has entries completes. -/
theorem inStep_run (acts : List NotifierAct)
    (hroom : ∀ i, (putsTo i acts).length ≤ coportEventqueueLen) :
    ∃ notifiers log, runLog notifierStep initNotifiers acts = some (notifiers, log) ∧
      InStep notifiers acts log := by
  -- From the right, since `InStep` speaks of the actions so far.
  induction acts using List.reverseRecOn with
  | nil => exact ⟨initNotifiers, [], rfl, inStep_init⟩
  | append_singleton acts a ih =>
    have hle : ∀ i, (putsTo i acts).length ≤ coportEventqueueLen := by
      intro i
      exact Nat.le_trans (putsTo_length_le i acts [a]) (hroom i)
    obtain ⟨notifiers, log, hrun, hstep⟩ := ih hle
    cases a with
    | put coport =>
      have hlt : (putsTo (getCoportNotifierIndex coport) acts).length < coportEventqueueLen := by
        have hput := hroom (getCoportNotifierIndex coport)
        rw [putsTo_put, if_pos rfl, List.length_append] at hput
        exact hput
      obtain ⟨notifiers', hact, hstep'⟩ := hstep.put coport hlt
      exact ⟨notifiers', _, runLog_append acts [_] hrun (by simp [runLog, hact]), hstep'⟩
    | wake j =>
      obtain ⟨notifiers', passed, hact, hstep'⟩ := hstep.wake j
      exact ⟨notifiers', _, runLog_append acts [_] hrun (by simp [runLog, hact]), hstep'⟩

/-- A run that gives some notifier too many events has a first put that does. -/
private theorem exists_overflow :
    ∀ acts : List NotifierAct, (∃ i, coportEventqueueLen < (putsTo i acts).length) →
      ∃ before coport rest, acts = before ++ .put coport :: rest ∧
        (∀ i, (putsTo i before).length ≤ coportEventqueueLen) ∧
        (putsTo (getCoportNotifierIndex coport) before).length = coportEventqueueLen := by
  intro acts
  induction acts using List.reverseRecOn with
  | nil =>
    rintro ⟨i, hi⟩
    simp [putsTo] at hi
  | append_singleton acts a ih =>
    rintro ⟨i, hi⟩
    by_cases hbefore : ∃ j, coportEventqueueLen < (putsTo j acts).length
    · obtain ⟨before, coport, rest, hsplit, hroom, hfull⟩ := ih hbefore
      exact ⟨before, coport, rest ++ [a], by simp [hsplit], hroom, hfull⟩
    · -- The last action is the first to go over the bound, so it is a put.
      have hroom : ∀ j, (putsTo j acts).length ≤ coportEventqueueLen := by
        intro j
        exact Nat.not_lt.mp fun hj => hbefore ⟨j, hj⟩
      cases a with
      | wake j =>
        rw [putsTo_wake] at hi
        exact absurd ⟨i, hi⟩ hbefore
      | put coport =>
        refine ⟨acts, coport, [], rfl, hroom, ?_⟩
        rw [putsTo_put, List.length_append] at hi
        have hle := hroom i
        split at hi
        · rename_i heq
          subst heq
          simp only [List.length_singleton] at hi
          omega
        · simp only [List.length_nil, Nat.add_zero] at hi
          omega

/-- A completed run gave no notifier more events than its array has entries. -/
theorem puts_le_of_completed (acts : List NotifierAct)
    {notifiers : Fin nCopollNotifiers → CopollNotifier} {log : List (NotifierAct × List Nat)}
    (hrun : runLog notifierStep initNotifiers acts = some (notifiers, log)) :
    ∀ i, (putsTo i acts).length ≤ coportEventqueueLen := by
  intro i
  by_contra hmany
  -- The shortest prefix that gives some notifier one event too many ends with that put.
  obtain ⟨before, coport, rest, hsplit, hroom, hfull⟩ :=
    exists_overflow acts ⟨i, Nat.not_le.mp hmany⟩
  obtain ⟨ns, log₁, hrun₁, hstep⟩ := inStep_run before hroom
  have hnone : runLog notifierStep ns (.put coport :: rest) = none := by
    have hact : notifierStep ns (.put coport) = none := by
      simp [notifierStep, CopollNotifier.putCoportEvent, hstep.nextEvent_eq, hfull]
    simp [runLog, hact]
  rw [hsplit, runLog_append_none hrun₁ hnone] at hrun
  cases hrun

/-- The queues work exactly in the runs that give no notifier more than
`COPORT_EVENTQUEUE_LEN` events in all. -/
theorem queueExact_iff (acts : List NotifierAct) :
    QueueExact acts ↔ ∀ i, (putsTo i acts).length ≤ coportEventqueueLen := by
  constructor
  · intro h
    obtain ⟨notifiers, log, hrun, -⟩ := h acts (List.prefix_refl acts)
    exact puts_le_of_completed acts hrun
  · rintro hroom before ⟨rest, rfl⟩
    have hle : ∀ i, (putsTo i before).length ≤ coportEventqueueLen := by
      intro i
      exact Nat.le_trans (putsTo_length_le i before rest) (hroom i)
    obtain ⟨notifiers, log, hrun, hstep⟩ := inStep_run before hle
    exact ⟨notifiers, log, hrun, hstep.exact⟩

/-- The first coport of the table is announced and delivered 32 times, and then announced
once more. -/
def exhaustRun : List NotifierAct :=
  (List.replicate coportEventqueueLen
    [NotifierAct.put 0, .wake (getCoportNotifierIndex 0)]).flatten ++ [NotifierAct.put 0]

/-- `exhaustRun` never has more than one undelivered event, and its last put fails the
assertion. -/
theorem queue_exhausted :
    (∀ before ∈ exhaustRun.inits, ∀ i, (undelivered i before).length ≤ 1) ∧
      runLog notifierStep initNotifiers exhaustRun = none ∧ ¬QueueExact exhaustRun := by
  have hfull : (putsTo (getCoportNotifierIndex 0) exhaustRun).length = coportEventqueueLen + 1 := by
    decide +kernel
  have hnot : ¬QueueExact exhaustRun := by
    rw [queueExact_iff]
    intro h
    have := h (getCoportNotifierIndex 0)
    omega
  refine ⟨by decide +kernel, ?_, hnot⟩
  cases hrun : runLog notifierStep initNotifiers exhaustRun with
  | none => rfl
  | some out =>
    have := puts_le_of_completed exhaustRun hrun (getCoportNotifierIndex 0)
    omega

end Comsg.Proofs.Ipcd
