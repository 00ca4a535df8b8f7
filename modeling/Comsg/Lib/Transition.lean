import Mathlib.Data.List.Basic

/-!
# `Comsg.Lib.Transition`: runs of a partial step function

A machine is a step function `step : σ → α → Option σ`. `step s a = none` says that the
action `a` is not enabled in `s`. `runFrom` executes a list of actions. `Reach step ok s₀ s`
says that some run leads from `s₀` to `s` in which every action `a` was taken in a state `s`
with `ok s a`. With `ok` constantly true these are all runs (`reach_of_runFrom`).

`Reach.invariant` is the invariant rule: a property that holds at the start and that every
admissible step keeps holds in every state reached. The step hypothesis may use that the
state before the step was reached itself. `Run` keeps the actions of such a run, for statements
about what has happened in it (`Run.exists_appended`).

`runLog` is the same for a machine that answers each action. It returns the final state and
the list of the actions with their answers, in order.
-/

set_option autoImplicit false

namespace Comsg.Lib

section Silent
variable {σ α : Type}

/-- The state after the actions `acts` from `s`. It is `none` when some action is not
enabled where its turn comes. -/
def runFrom (step : σ → α → Option σ) : σ → List α → Option σ
  | s, []        => some s
  | s, a :: acts => (step s a).bind fun s' => runFrom step s' acts

/-- The states that a run from `s₀` reaches when each of its actions `a` is taken in a state
`s` with `ok s a`. -/
inductive Reach (step : σ → α → Option σ) (ok : σ → α → Prop) (s₀ : σ) : σ → Prop
  | init : Reach step ok s₀ s₀
  | next {s s' : σ} (a : α) (h : Reach step ok s₀ s) (hok : ok s a)
      (hs : step s a = some s') : Reach step ok s₀ s'

/-- The restriction that admits every action. -/
def anyAct (_ : σ) (_ : α) : Prop := True

variable {step : σ → α → Option σ} {ok : σ → α → Prop} {s₀ : σ}

/-- The invariant rule. -/
theorem Reach.invariant {Inv : σ → Prop} (hinit : Inv s₀)
    (hstep : ∀ s a s', Reach step ok s₀ s → Inv s → ok s a → step s a = some s' → Inv s')
    {s : σ} (h : Reach step ok s₀ s) : Inv s := by
  induction h with
  | init => exact hinit
  | next a h hok hs ih => exact hstep _ a _ h ih hok hs

/-- Runs compose. -/
theorem Reach.trans {s s' : σ} (h : Reach step ok s₀ s) (h' : Reach step ok s s') :
    Reach step ok s₀ s' := by
  induction h' with
  | init => exact h
  | next a _ hok hs ih => exact .next a ih hok hs

/-- A run under a restriction is one under each weaker restriction. -/
theorem Reach.mono {ok' : σ → α → Prop} (hok : ∀ s a, ok s a → ok' s a) {s : σ}
    (h : Reach step ok s₀ s) : Reach step ok' s₀ s := by
  induction h with
  | init => exact .init
  | next a _ ha hs ih => exact .next a ih (hok _ a ha) hs

/-- A projection to another machine takes runs to runs. -/
theorem Reach.map {τ : Type} {step' : τ → α → Option τ} (f : σ → τ)
    (hstep : ∀ s a, (step s a).map f = step' (f s) a) {s : σ} (h : Reach step ok s₀ s) :
    Reach step' anyAct (f s₀) (f s) := by
  induction h with
  | init => exact .init
  | next a _ _ hs ih => exact .next a ih trivial (by rw [← hstep, hs, Option.map_some])

/-- Executing two action lists one after the other. -/
theorem runFrom_append :
    ∀ (xs ys : List α) {s t : σ}, runFrom step s xs = some t →
      runFrom step s (xs ++ ys) = runFrom step t ys := by
  intro xs
  induction xs with
  | nil =>
    intro ys s t h
    cases h
    rfl
  | cons a xs ih =>
    intro ys s t h
    obtain ⟨s', hs, hrest⟩ := Option.bind_eq_some_iff.mp h
    simp only [List.cons_append, runFrom, hs, Option.bind_some]
    exact ih ys hrest

/-- A run over two action lists, taken apart. -/
theorem runFrom_split {xs ys : List α} {s u : σ} (h : runFrom step s (xs ++ ys) = some u) :
    ∃ t, runFrom step s xs = some t ∧ runFrom step t ys = some u := by
  induction xs generalizing s with
  | nil => exact ⟨s, rfl, h⟩
  | cons a xs ih =>
    obtain ⟨s', hs, hrest⟩ := Option.bind_eq_some_iff.mp h
    obtain ⟨t, ht, hu⟩ := ih hrest
    exact ⟨t, by simp [runFrom, hs, ht], hu⟩

/-- The last step of a run. -/
theorem runFrom_concat {xs : List α} {a : α} {s u : σ}
    (h : runFrom step s (xs.concat a) = some u) :
    ∃ t, runFrom step s xs = some t ∧ step t a = some u := by
  rw [List.concat_eq_append] at h
  obtain ⟨t, ht, hu⟩ := runFrom_split h
  exact ⟨t, ht, by simpa [runFrom] using hu⟩

/-- The runs that `Reach` is about, with their actions. -/
inductive Run (step : σ → α → Option σ) (ok : σ → α → Prop) (s₀ : σ) : List α → σ → Prop
  | init : Run step ok s₀ [] s₀
  | next {acts : List α} {s s' : σ} (a : α) (h : Run step ok s₀ acts s) (hok : ok s a)
      (hs : step s a = some s') : Run step ok s₀ (acts ++ [a]) s'

theorem Run.reach {acts : List α} {s : σ} (h : Run step ok s₀ acts s) : Reach step ok s₀ s := by
  induction h with
  | init => exact .init
  | next a _ hok hs ih => exact .next a ih hok hs

/-- Runs compose, and so do their actions. -/
theorem Run.append {xs ys : List α} {s s' : σ} (h : Run step ok s₀ xs s)
    (h' : Run step ok s ys s') : Run step ok s₀ (xs ++ ys) s' := by
  induction h' with
  | init => simpa using h
  | next a _ hok hs ih =>
    rw [← List.append_assoc]
    exact .next a ih hok hs

/-- An executed action list is a run. -/
theorem run_of_runFrom (acts : List α) (s s' : σ) (h : runFrom step s acts = some s') :
    Run step anyAct s acts s' := by
  induction acts generalizing s with
  | nil =>
    cases h
    exact .init
  | cons a acts ih =>
    obtain ⟨t, ht, hrest⟩ := Option.bind_eq_some_iff.mp h
    have hone : Run step anyAct s [a] t := .next a .init trivial ht
    exact hone.append (ih t hrest)

/-- The final state of an executed action list is reached. -/
theorem reach_of_runFrom (acts : List α) (s s' : σ) (h : runFrom step s acts = some s') :
    Reach step anyAct s s' :=
  (run_of_runFrom acts s s' h).reach

/-- A test that holds before each action of an executed list. -/
def checkAll (step : σ → α → Option σ) (check : σ → α → Bool) : σ → List α → Bool
  | _, []        => true
  | s, a :: acts => check s a && ((step s a).map fun s' => checkAll step check s' acts).getD false

/-- An action list that executes leads to a state that is reached. -/
theorem exists_reach_of_isSome (step : σ → α → Option σ) (acts : List α) (s : σ)
    (h : (runFrom step s acts).isSome = true) :
    ∃ s', runFrom step s acts = some s' ∧ Reach step anyAct s s' := by
  obtain ⟨s', hs'⟩ := Option.isSome_iff_exists.mp h
  exact ⟨s', hs', reach_of_runFrom acts s s' hs'⟩

/-- What a run computes of its final state. -/
theorem eq_of_map_runFrom {τ : Type} {acts : List α} {s s' : σ} (f : σ → τ) {b : τ}
    (h : runFrom step s acts = some s') (hf : (runFrom step s acts).map f = some b) : f s' = b := by
  rw [h] at hf
  exact Option.some.inj hf

/-- An executed action list is a run under a restriction, when a test that implies it holds
before each action. -/
theorem run_of_checkAll {check : σ → α → Bool} (himp : ∀ s a, check s a = true → ok s a)
    (acts : List α) (s s' : σ) (hall : checkAll step check s acts = true)
    (h : runFrom step s acts = some s') : Run step ok s acts s' := by
  induction acts generalizing s with
  | nil =>
    cases h
    exact .init
  | cons a acts ih =>
    obtain ⟨t, ht, hrest⟩ := Option.bind_eq_some_iff.mp h
    simp only [checkAll, ht, Option.map_some, Option.getD_some, Bool.and_eq_true] at hall
    have hone : Run step ok s [a] t := .next a .init (himp s a hall.1) ht
    exact hone.append (ih t hall.2 hrest)

/-- The final state of an executed action list is reached under a restriction, when a test
that implies it holds before each action. -/
theorem reach_of_checkAll {check : σ → α → Bool} (himp : ∀ s a, check s a = true → ok s a)
    (acts : List α) (s s' : σ) (hall : checkAll step check s acts = true)
    (h : runFrom step s acts = some s') : Reach step ok s s' :=
  (run_of_checkAll himp acts s s' hall h).reach

/-- The action `a` was taken in state `s` of the run, and led to `s'`. -/
structure Run.At (step : σ → α → Option σ) (ok : σ → α → Prop) (s₀ : σ) (acts before : List α)
    (a : α) (s s' : σ) : Prop where
  split : ∃ after, acts = before ++ a :: after
  run : Run step ok s₀ before s
  ok : ok s a
  step : step s a = some s'

/-- A run is the execution of its actions. -/
theorem Run.runFrom_eq {acts : List α} {s : σ} (h : Run step ok s₀ acts s) :
    runFrom step s₀ acts = some s := by
  induction h with
  | init => rfl
  | next a _ _ hs ih =>
    rw [runFrom_append _ _ ih]
    simp [runFrom, hs]

/-- A list whose actions all pass a test executes. -/
theorem exists_runFrom_of_checkAll {check : σ → α → Bool} :
    ∀ (acts : List α) (s : σ), checkAll step check s acts = true →
      ∃ s', runFrom step s acts = some s' := by
  intro acts
  induction acts with
  | nil => exact fun s _ => ⟨s, rfl⟩
  | cons a acts ih =>
    intro s hall
    rw [checkAll, Bool.and_eq_true] at hall
    cases hs : step s a with
    | none => simp [hs] at hall
    | some t =>
      obtain ⟨s', hs'⟩ := ih t (by simpa [hs] using hall.2)
      exact ⟨s', by simp [runFrom, hs, hs']⟩

/-- The last action of an executed list, as a step of its run. -/
theorem exists_at_of_checkAll (step : σ → α → Option σ) (s₀ : σ) {check : σ → α → Bool}
    (himp : ∀ s a, check s a = true → ok s a) (before : List α) (a : α)
    (hall : checkAll step check s₀ (before ++ [a]) = true) :
    ∃ s s', Run.At step ok s₀ (before ++ [a]) before a s s' ∧ runFrom step s₀ before = some s ∧
      runFrom step s₀ (before ++ [a]) = some s' := by
  obtain ⟨s', h⟩ := exists_runFrom_of_checkAll _ s₀ hall
  have hrun := run_of_checkAll himp _ s₀ s' hall h
  generalize hacts : before ++ [a] = acts at hrun
  cases hrun with
  | init => simp at hacts
  | next b hbefore hok hs =>
    obtain ⟨rfl, hlast⟩ := List.append_inj' hacts rfl
    cases hlast
    exact ⟨_, s', ⟨⟨[], rfl⟩, hbefore, hok, hs⟩, hbefore.runFrom_eq, h⟩

/-- A step of a run is one of each longer run. -/
theorem Run.At.concat {acts before : List α} {a b : α} {s s' : σ}
    (h : Run.At step ok s₀ acts before a s s') : Run.At step ok s₀ (acts ++ [b]) before a s s' := by
  obtain ⟨after, rfl⟩ := h.split
  exact ⟨⟨after ++ [b], by simp⟩, h.run, h.ok, h.step⟩

/-- A step of a run that is longer by one is its last one, or a step of the run. -/
theorem Run.At.of_concat {acts before : List α} {a b : α} {s s' t : σ}
    (h : Run.At step ok s₀ (acts ++ [b]) before a s s') (hrun : Run step ok s₀ acts t) :
    (a = b ∧ s = t) ∨ Run.At step ok s₀ acts before a s s' := by
  obtain ⟨after, hsplit⟩ := h.split
  obtain rfl | ⟨after, c, rfl⟩ := List.eq_nil_or_concat after
  · obtain ⟨rfl, hlast⟩ := List.append_inj' hsplit rfl
    cases hlast
    exact .inl ⟨rfl, Option.some.inj (h.run.runFrom_eq.symm.trans hrun.runFrom_eq)⟩
  · rw [List.concat_eq_append, ← List.cons_append, ← List.append_assoc] at hsplit
    obtain ⟨hacts, -⟩ := List.append_inj' hsplit rfl
    exact .inr ⟨⟨after, hacts⟩, h.run, h.ok, h.step⟩

/-- A run without actions has no step. -/
theorem Run.At.not_nil {before : List α} {a : α} {s s' : σ} :
    ¬Run.At step ok s₀ [] before a s s' := by
  intro h
  obtain ⟨after, hsplit⟩ := h.split
  simp at hsplit

/-- What holds of every step of a run that is longer by one. -/
theorem Run.forall_at_concat {P : σ → α → Prop} {acts : List α} {a : α} {s s' : σ}
    (hrun : Run step ok s₀ acts s) (hok : ok s a) (hs : step s a = some s') :
    (∀ before b t t', Run.At step ok s₀ (acts ++ [a]) before b t t' → P t b) ↔
      (∀ before b t t', Run.At step ok s₀ acts before b t t' → P t b) ∧ P s a := by
  constructor
  · intro h
    exact ⟨fun before b t t' hat => h before b t t' hat.concat,
      h acts a s s' ⟨⟨[], rfl⟩, hrun, hok, hs⟩⟩
  · rintro ⟨hall, hlast⟩ before b t t' hat
    obtain ⟨rfl, rfl⟩ | hat := hat.of_concat hrun
    · exact hlast
    · exact hall before b t t' hat

/-- Where every step appends at most one entry to a log, each entry was appended by a step. -/
theorem Run.exists_appended {ε : Type} (log : σ → List ε) (hinit : log s₀ = [])
    (hlog : ∀ s a s', Reach step ok s₀ s → step s a = some s' →
      log s' = log s ∨ ∃ e, log s' = log s ++ [e])
    {acts : List α} {s : σ} (h : Run step ok s₀ acts s) {l₁ l₂ : List ε} {e : ε}
    (heq : log s = l₁ ++ e :: l₂) :
    ∃ before a t t', Run.At step ok s₀ acts before a t t' ∧ log t = l₁ ∧ log t' = l₁ ++ [e] := by
  induction h generalizing l₂ with
  | init => simp [hinit] at heq
  | next a hrun hok hs ih =>
    rcases hlog _ a _ hrun.reach hs with hsame | ⟨e', happend⟩
    · obtain ⟨before, b, t, t', hat, ht⟩ := ih (hsame.symm.trans heq)
      exact ⟨before, b, t, t', hat.concat, ht⟩
    · rw [happend] at heq
      rcases List.eq_nil_or_concat l₂ with rfl | ⟨l, e₁, rfl⟩
      · -- The entry is the last one.
        obtain ⟨hold, hnew⟩ := List.append_inj' heq rfl
        cases hnew
        exact ⟨_, a, _, _, ⟨⟨[], rfl⟩, hrun, hok, hs⟩, hold, by rw [happend, hold]⟩
      · rw [List.concat_eq_append, ← List.cons_append, ← List.append_assoc] at heq
        obtain ⟨hold, -⟩ := List.append_inj' heq rfl
        obtain ⟨before, b, t, t', hat, ht⟩ := ih hold
        exact ⟨before, b, t, t', hat.concat, ht⟩

end Silent

section Answering
variable {σ α β : Type}

/-- The run of a machine that answers. The log pairs each action with its answer. -/
def runLog (step : σ → α → Option (σ × β)) : σ → List α → Option (σ × List (α × β))
  | s, []        => some (s, [])
  | s, a :: acts =>
    (step s a).bind fun (s', b) => (runLog step s' acts).map fun (t, log) => (t, (a, b) :: log)

variable {step : σ → α → Option (σ × β)}

/-- A run of one action and then `acts`, taken apart. -/
theorem runLog_cons {s t : σ} {a : α} {acts : List α} {log : List (α × β)}
    (h : runLog step s (a :: acts) = some (t, log)) :
    ∃ s' b log', step s a = some (s', b) ∧ runLog step s' acts = some (t, log') ∧
      log = (a, b) :: log' := by
  obtain ⟨⟨s', b⟩, hs, hrest⟩ := Option.bind_eq_some_iff.mp h
  obtain ⟨⟨t', log'⟩, hr, heq⟩ := Option.map_eq_some_iff.mp hrest
  cases heq
  exact ⟨s', b, log', hs, hr, rfl⟩

/-- What a run computes of its final state and its log. -/
theorem eq_of_map_runLog {τ : Type} {acts : List α} {s t : σ} {log : List (α × β)}
    (f : σ → List (α × β) → τ) {b : τ} (h : runLog step s acts = some (t, log))
    (hf : (runLog step s acts).map (fun q => f q.1 q.2) = some b) : f t log = b := by
  rw [h] at hf
  exact Option.some.inj hf

/-- Runs compose and their logs append. -/
theorem runLog_append :
    ∀ (xs ys : List α) {s t u : σ} {log log' : List (α × β)},
      runLog step s xs = some (t, log) → runLog step t ys = some (u, log') →
      runLog step s (xs ++ ys) = some (u, log ++ log') := by
  intro xs
  induction xs with
  | nil =>
    intro ys s t u log log' h h'
    cases h
    exact h'
  | cons a xs ih =>
    intro ys s t u log log' h h'
    obtain ⟨s', b, rest, hs, hr, rfl⟩ := runLog_cons h
    simp [runLog, hs, ih ys hr h']

/-- A run that gets stuck in its second part gets stuck. -/
theorem runLog_append_none {xs ys : List α} {s t : σ} {log : List (α × β)}
    (h : runLog step s xs = some (t, log)) (h' : runLog step t ys = none) :
    runLog step s (xs ++ ys) = none := by
  induction xs generalizing s log with
  | nil =>
    cases h
    exact h'
  | cons a xs ih =>
    obtain ⟨s', b, rest, hs, hr, rfl⟩ := runLog_cons h
    simp [runLog, hs, ih hr]

/-- The invariant rule for a relation between the state and the log so far. When every step
is enabled under the relation and keeps it, every run completes and ends in the relation. -/
theorem runLog_total {Rel : σ → List (α × β) → Prop}
    (hstep : ∀ s log a, Rel s log →
      ∃ s' b, step s a = some (s', b) ∧ Rel s' (log ++ [(a, b)])) :
    ∀ (acts : List α) (s : σ) (log : List (α × β)), Rel s log →
      ∃ s' log', runLog step s acts = some (s', log') ∧ Rel s' (log ++ log') := by
  intro acts
  induction acts with
  | nil =>
    intro s log h
    exact ⟨s, [], rfl, by simpa using h⟩
  | cons a acts ih =>
    intro s log h
    obtain ⟨s', b, hs, hrel⟩ := hstep s log a h
    obtain ⟨t, log', hr, hrel'⟩ := ih s' _ hrel
    exact ⟨t, (a, b) :: log', by simp [runLog, hs, hr], by simpa using hrel'⟩

end Answering

end Comsg.Lib
