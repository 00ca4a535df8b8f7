import Comsg.Lib.Transition
import Mathlib.Logic.Relation

/-!
# `Comsg.Lib.Threads`: threads and their phases

The phases of any number of threads are a list. A step of one thread replaces its phase. The
first lemmas say how the number of threads in a set of phases changes then.

In a `Pool` the threads work on a shared state. Each thread has a task, and `advance` says what it
does next. An `ExclusiveSection` is a part of `advance` that one thread is to enter. When no thread
takes a step while another one is in its way (`OneAtATime`), at most one ever enters, and the
shared state is the initial one until then (`ExclusiveSection.reach`).

`Alone` is what a thread gets to by steps of its own. There is only one way to go
(`Alone.total`).
-/

set_option autoImplicit false

namespace Comsg.Lib

variable {α : Type} {xs : List α} {r : Nat} {x y : α}

/-- A thread goes from phase `x` to phase `y`. -/
theorem countP_set_add (p : α → Bool) (h : xs[r]? = some x) :
    (xs.set r y).countP p + (p x).toNat = xs.countP p + (p y).toNat := by
  obtain ⟨hlt, rfl⟩ := List.getElem?_eq_some_iff.mp h
  have hite (b : Bool) : (if b = true then 1 else 0) = b.toNat := by
    cases b <;> rfl
  have hle : (if p xs[r] = true then 1 else 0) ≤ xs.countP p := List.boole_getElem_le_countP hlt
  rw [List.countP_set hlt, hite, hite]
  rw [hite] at hle
  omega

/-- The phase of a thread after the step of another one, or of its own. -/
theorem getElem?_set_cases {r' : Nat} {z : α} (h : (xs.set r y)[r']? = some z) :
    (r' = r ∧ z = y) ∨ (r' ≠ r ∧ xs[r']? = some z) := by
  rw [List.getElem?_set] at h
  by_cases heq : r = r'
  · subst heq
    rw [if_pos rfl] at h
    split at h
    · exact .inl ⟨rfl, (Option.some.inj h).symm⟩
    · cases h
  · rw [if_neg heq] at h
    exact .inr ⟨Ne.symm heq, h⟩

/-! ### Threads over a shared state -/

/-- Threads with their tasks and phases, and what they share. -/
structure Pool (σ α φ : Type) where
  shared : σ
  threads : List (α × φ)
  deriving DecidableEq

/-- A new thread, or a step of one. -/
inductive PoolAct (α : Type)
  | arrive (task : α)
  | advance (r : Nat)
  deriving DecidableEq

section Pools
variable {σ φ : Type}

/-- One step. A new thread begins in the phase `start`. -/
def poolStep (start : φ) (advance : σ → α → φ → Option (σ × φ)) (s : Pool σ α φ) :
    PoolAct α → Option (Pool σ α φ)
  | .arrive task => some { s with threads := s.threads ++ [(task, start)] }
  | .advance r => do
    let (task, phase) ← s.threads[r]?
    let (shared, phase') ← advance s.shared task phase
    some ⟨shared, s.threads.set r (task, phase')⟩

variable {start : φ} {advance : σ → α → φ → Option (σ × φ)} {s s' : Pool σ α φ} {s₀ : σ}

theorem poolStep_cases {act : PoolAct α} (h : poolStep start advance s act = some s') :
    (∃ task, act = .arrive task ∧ s' = { s with threads := s.threads ++ [(task, start)] }) ∨
    ∃ r task phase shared phase', act = .advance r ∧ s.threads[r]? = some (task, phase) ∧
      advance s.shared task phase = some (shared, phase') ∧
      s' = ⟨shared, s.threads.set r (task, phase')⟩ := by
  cases act with
  | arrive task => exact .inl ⟨task, rfl, (Option.some.inj h).symm⟩
  | advance r =>
    obtain ⟨⟨task, phase⟩, hr, h⟩ := Option.bind_eq_some_iff.mp h
    obtain ⟨⟨shared, phase'⟩, hadv, h⟩ := Option.bind_eq_some_iff.mp h
    exact .inr ⟨r, task, phase, shared, phase', rfl, hr, hadv, (Option.some.inj h).symm⟩

/-- A step of a thread that is alone. -/
theorem reach_alone {x : Pool σ α φ} {shared shared' : σ} {task : α} {phase phase' : φ}
    (h : Reach (poolStep start advance) anyAct x ⟨shared, [(task, phase)]⟩)
    (hadv : advance shared task phase = some (shared', phase')) :
    Reach (poolStep start advance) anyAct x ⟨shared', [(task, phase')]⟩ :=
  .next (.advance 0) h trivial (by simp [poolStep, hadv])

/-- Steps of one thread, while the others do nothing. -/
def Alone (advance : σ → α → φ → Option (σ × φ)) (task : α) : σ × φ → σ × φ → Prop :=
  Relation.ReflTransGen fun x y => advance x.1 task x.2 = some y

namespace Alone
variable {task : α} {x y z : σ × φ}

theorem step (h : advance x.1 task x.2 = some y) (hrest : Alone advance task y z) :
    Alone advance task x z :=
  .head h hrest

theorem trans (h : Alone advance task x y) (hrest : Alone advance task y z) :
    Alone advance task x z :=
  Relation.ReflTransGen.trans h hrest

/-- Of two states that the thread gets to, one comes before the other. -/
theorem total (hy : Alone advance task x y) (hz : Alone advance task x z) :
    Alone advance task y z ∨ Alone advance task z y :=
  Relation.ReflTransGen.total_of_right_unique
    (fun _ _ _ h h' => Option.some.inj (h.symm.trans h')) hy hz

theorem eq_of_none (h : advance x.1 task x.2 = none) (hxz : Alone advance task x z) : x = z := by
  rcases Relation.ReflTransGen.cases_head hxz with heq | ⟨y, hy, -⟩
  · exact heq
  · rw [h] at hy
    cases hy

/-- A thread whose step leads back to where it was stays there. -/
theorem eq_of_same (h : advance x.1 task x.2 = some x) (hxz : Alone advance task x z) : x = z := by
  induction hxz with
  | refl => rfl
  | tail _ hy ih =>
    subst ih
    rw [h] at hy
    exact Option.some.inj hy

/-- The last thread of a pool runs alone. -/
theorem reach {step : Pool σ α φ → PoolAct α → Option (Pool σ α φ)}
    (hstep : ∀ s r, step s (.advance r) = poolStep start advance s (.advance r))
    {x₀ : Pool σ α φ} {shared shared' : σ} {threads : List (α × φ)} {phase phase' : φ}
    (hrun : Alone advance task (shared, phase) (shared', phase'))
    (h : Reach step anyAct x₀ ⟨shared, threads ++ [(task, phase)]⟩) :
    Reach step anyAct x₀ ⟨shared', threads ++ [(task, phase')]⟩ := by
  generalize hx : (shared', phase') = y at hrun
  induction hrun generalizing shared' phase' with
  | refl =>
    cases hx
    exact h
  | @tail y z _ hy ih =>
    obtain ⟨t, ph⟩ := y
    subst hx
    refine .next (.advance threads.length) (ih rfl) trivial ?_
    simp only at hy
    simp [hstep, poolStep, hy]

end Alone

/-- A thread after another has arrived was there before, or is the new one. -/
theorem getElem?_concat_cases {xs : List α} {x y : α} {r : Nat} (h : (xs ++ [x])[r]? = some y) :
    xs[r]? = some y ∨ y = x := by
  rw [List.getElem?_append] at h
  split at h
  · exact .inl h
  · rw [List.getElem?_singleton] at h
    split at h
    · exact .inr (Option.some.inj h).symm
    · cases h

/-- New threads have a `good` task, and a thread takes its next step only while no thread is in
its way. -/
def OneAtATime (good : α → Prop) (conflicts : α × φ → α × φ → Bool) (s : Pool σ α φ) :
    PoolAct α → Prop
  | .arrive task => good task
  | .advance r   => ∀ x, s.threads[r]? = some x → ∀ y ∈ s.threads, conflicts x y = false

/-- A test of `OneAtATime`. -/
def checkOneAtATime (good : α → Bool) (conflicts : α × φ → α × φ → Bool) (s : Pool σ α φ) :
    PoolAct α → Bool
  | .arrive task => good task
  | .advance r   => s.threads[r]?.all fun x => s.threads.all fun y => !conflicts x y

theorem oneAtATime_of_check {good : α → Prop} [DecidablePred good]
    {conflicts : α × φ → α × φ → Bool} (s : Pool σ α φ) (act : PoolAct α)
    (h : checkOneAtATime (fun task => good task) conflicts s act = true) :
    OneAtATime good conflicts s act := by
  cases act with
  | arrive task => simpa [checkOneAtATime, OneAtATime] using h
  | advance r =>
    intro x hr y hy
    simp only [checkOneAtATime, hr, Option.all_some, List.all_eq_true] at h
    simpa using h y hy

/-- A part of `advance` that a thread enters by a step of its own. `fit` is what holds of every
thread, and `holds` is what a thread that has entered knows of the shared state. -/
structure ExclusiveSection (start : φ) (advance : σ → α → φ → Option (σ × φ)) (s₀ : σ) where
  good : α → Prop
  conflicts : α × φ → α × φ → Bool
  entered : α → φ → Bool
  fit : α → φ → Prop
  holds : σ → α → φ → Prop
  start_out : ∀ {task}, entered task start = false
  start_fit : ∀ {task}, good task → fit task start
  fit_step : ∀ {s s' task phase phase'}, fit task phase →
    advance s task phase = some (s', phase') → fit task phase'
  /-- A thread that stays outside leaves the shared state alone. -/
  out_step : ∀ {s s' task phase phase'}, entered task phase = false →
    advance s task phase = some (s', phase') → entered task phase' = false → s' = s
  /-- The first thread enters. -/
  enter : ∀ {s' task phase phase'}, fit task phase → entered task phase = false →
    advance s₀ task phase = some (s', phase') → entered task phase' = true → holds s' task phase'
  /-- A thread inside stays inside. -/
  stay : ∀ {s s' task phase phase'}, fit task phase → entered task phase = true →
    holds s task phase → advance s task phase = some (s', phase') →
    entered task phase' = true ∧ holds s' task phase'
  /-- After a thread that is not in its way, another one stays outside. -/
  shut : ∀ {s s' task phase task' phase' phase''}, entered task phase = true →
    conflicts (task', phase') (task, phase) = false → fit task phase → holds s task phase →
    fit task' phase' → entered task' phase' = false →
    advance s task' phase' = some (s', phase'') → entered task' phase'' = false

namespace ExclusiveSection

/-- At most one thread has entered, and what it knows holds. Before that, nothing has changed. -/
structure Inv (S : ExclusiveSection start advance s₀) (s : Pool σ α φ) : Prop where
  fit : ∀ (r : Nat) task phase, s.threads[r]? = some (task, phase) → S.fit task phase
  one : ∀ (r r' : Nat) x x', s.threads[r]? = some x → s.threads[r']? = some x' →
    S.entered x.1 x.2 = true → S.entered x'.1 x'.2 = true → r = r'
  holds : ∀ (r : Nat) task phase, s.threads[r]? = some (task, phase) →
    S.entered task phase = true → S.holds s.shared task phase
  same : (∀ (r : Nat) x, s.threads[r]? = some x → S.entered x.1 x.2 = false) → s.shared = s₀

variable (S : ExclusiveSection start advance s₀)

theorem inv_arrive (h : S.Inv s) {task : α} (hgood : S.good task) :
    S.Inv { s with threads := s.threads ++ [(task, start)] } where
  fit r t phase hr := by
    rcases getElem?_concat_cases hr with hr | heq
    · exact h.fit r t phase hr
    · cases heq
      exact S.start_fit hgood
  one r r' x x' hr hr' hx hx' := by
    rcases getElem?_concat_cases hr with hr | rfl
    · rcases getElem?_concat_cases hr' with hr' | rfl
      · exact h.one r r' x x' hr hr' hx hx'
      · exact absurd hx' (by simp [S.start_out])
    · exact absurd hx (by simp [S.start_out])
  holds r t phase hr hin := by
    rcases getElem?_concat_cases hr with hr | heq
    · exact h.holds r t phase hr hin
    · cases heq
      exact absurd hin (by simp [S.start_out])
  same hout := by
    refine h.same fun r x hr => hout r x ?_
    show (s.threads ++ [(task, start)])[r]? = some x
    rw [List.getElem?_append_left (List.getElem?_eq_some_iff.mp hr).1]
    exact hr

section Advance
variable {r : Nat} {task : α} {phase phase' : φ} {shared : σ}

/-- A step keeps what holds of every thread. -/
theorem fit_advance (h : S.Inv s) (hr : s.threads[r]? = some (task, phase))
    (hadv : advance s.shared task phase = some (shared, phase')) {q : Nat} {t : α} {ph : φ}
    (hq : (s.threads.set r (task, phase'))[q]? = some (t, ph)) : S.fit t ph := by
  rcases getElem?_set_cases hq with ⟨-, heq⟩ | ⟨-, hq⟩
  · cases heq
    exact S.fit_step (h.fit r task phase hr) hadv
  · exact h.fit q t ph hq

/-- A step into the section, or of the thread that is inside. -/
theorem inv_inside (h : S.Inv s) (hr : s.threads[r]? = some (task, phase))
    (hadv : advance s.shared task phase = some (shared, phase'))
    (hin : S.entered task phase' = true) (hholds : S.holds shared task phase')
    (hothers : ∀ (q : Nat) x, s.threads[q]? = some x → q ≠ r → S.entered x.1 x.2 = false) :
    S.Inv ⟨shared, s.threads.set r (task, phase')⟩ := by
  -- No other thread is inside.
  have hone {q : Nat} {x : α × φ} (hq : (s.threads.set r (task, phase'))[q]? = some x)
      (hx : S.entered x.1 x.2 = true) : q = r ∧ x = (task, phase') := by
    rcases getElem?_set_cases hq with heq | ⟨hne, hq⟩
    · exact heq
    · exact absurd hx (by simp [hothers q x hq hne])
  constructor
  · intro q t ph hq
    exact S.fit_advance h hr hadv hq
  · intro q q' x x' hq hq' hx hx'
    rw [(hone hq hx).1, (hone hq' hx').1]
  · intro q t ph hq hx
    cases (hone hq hx).2
    exact hholds
  · intro hout
    have hlt := (List.getElem?_eq_some_iff.mp hr).1
    have hno := hout r (task, phase') (by simp [hlt])
    exact absurd hin (by simp [hno])

/-- A step of a thread that stays outside. -/
theorem inv_outside (h : S.Inv s) (hr : s.threads[r]? = some (task, phase))
    (hadv : advance s.shared task phase = some (shared, phase'))
    (hout : S.entered task phase = false) (hout' : S.entered task phase' = false) :
    S.Inv ⟨shared, s.threads.set r (task, phase')⟩ := by
  cases S.out_step hout hadv hout'
  -- A thread inside is another one.
  have hother {q : Nat} {x : α × φ} (hq : (s.threads.set r (task, phase'))[q]? = some x)
      (hx : S.entered x.1 x.2 = true) : s.threads[q]? = some x := by
    rcases getElem?_set_cases hq with ⟨-, rfl⟩ | ⟨-, hq⟩
    · exact absurd hx (by simp [hout'])
    · exact hq
  constructor
  · intro q t ph hq
    exact S.fit_advance h hr hadv hq
  · intro q q' x x' hq hq' hx hx'
    exact h.one q q' x x' (hother hq hx) (hother hq' hx') hx hx'
  · intro q t ph hq hx
    exact h.holds q t ph (hother hq hx) hx
  · intro hnone
    refine h.same fun q x hq => ?_
    by_cases hqr : q = r
    · subst hqr
      rw [hr] at hq
      cases hq
      exact hout
    · exact hnone q x (by simpa [List.getElem?_set_ne (Ne.symm hqr)] using hq)

/-- A thread enters only when no thread has entered before. -/
theorem first_of_enter (h : S.Inv s) (hok : OneAtATime S.good S.conflicts s (.advance r))
    (hr : s.threads[r]? = some (task, phase)) (hout : S.entered task phase = false)
    (hadv : advance s.shared task phase = some (shared, phase'))
    (hin : S.entered task phase' = true) :
    ∀ (q : Nat) x, s.threads[q]? = some x → S.entered x.1 x.2 = false := by
  intro q x hq
  rw [← Bool.not_eq_true]
  intro hx
  have hclear := hok (task, phase) hr x (List.mem_of_getElem? hq)
  have hshut := S.shut hx hclear (h.fit q x.1 x.2 hq) (h.holds q x.1 x.2 hq hx)
    (h.fit r task phase hr) hout hadv
  exact absurd hin (by simp [hshut])

theorem inv_advance (h : S.Inv s) (hok : OneAtATime S.good S.conflicts s (.advance r))
    (hr : s.threads[r]? = some (task, phase))
    (hadv : advance s.shared task phase = some (shared, phase')) :
    S.Inv ⟨shared, s.threads.set r (task, phase')⟩ := by
  have hfit := h.fit r task phase hr
  cases hout : S.entered task phase with
  | true =>
    obtain ⟨hin', hholds⟩ := S.stay hfit hout (h.holds r task phase hr hout) hadv
    refine S.inv_inside h hr hadv hin' hholds fun q x hq hne => ?_
    rw [← Bool.not_eq_true]
    intro hx
    exact hne (h.one q r x (task, phase) hq hr hx hout)
  | false =>
    cases hin : S.entered task phase' with
    | true =>
      have hfirst := S.first_of_enter h hok hr hout hadv hin
      rw [h.same hfirst] at hadv
      refine S.inv_inside h hr ?_ hin (S.enter hfit hout hadv hin) fun q x hq _ => hfirst q x hq
      rwa [h.same hfirst]
    | false => exact S.inv_outside h hr hadv hout hin

end Advance

/-- A thread that has entered stays inside. -/
theorem entered_step (h : S.Inv s) {act : PoolAct α} (hs : poolStep start advance s act = some s')
    {r : Nat} {task : α} {phase : φ} (hr : s.threads[r]? = some (task, phase))
    (hin : S.entered task phase = true) :
    ∃ phase', s'.threads[r]? = some (task, phase') ∧ S.entered task phase' = true := by
  have hlt := (List.getElem?_eq_some_iff.mp hr).1
  rcases poolStep_cases hs with ⟨task', rfl, rfl⟩ |
    ⟨q, task', ph, shared, ph', rfl, hq, hadv, rfl⟩
  · exact ⟨phase, by simpa [List.getElem?_append_left hlt] using hr, hin⟩
  · by_cases heq : q = r
    · subst heq
      rw [hr] at hq
      cases hq
      have hstay := S.stay (h.fit q task phase hr) hin (h.holds q task phase hr hin) hadv
      exact ⟨ph', by simp [hlt], hstay.1⟩
    · exact ⟨phase, by simpa [List.getElem?_set_ne heq] using hr, hin⟩

/-- The rule of the exclusive section. -/
theorem reach (h : Reach (poolStep start advance) (OneAtATime S.good S.conflicts) ⟨s₀, []⟩ s) :
    S.Inv s := by
  induction h with
  | init => exact ⟨by simp, by simp, by simp, fun _ => rfl⟩
  | next act hreach hok hs ih =>
    rcases poolStep_cases hs with ⟨task, rfl, rfl⟩ |
      ⟨r, task, phase, shared, phase', rfl, hr, hadv, rfl⟩
    · exact S.inv_arrive ih hok
    · exact S.inv_advance ih hok hr hadv

end ExclusiveSection

end Pools

end Comsg.Lib
