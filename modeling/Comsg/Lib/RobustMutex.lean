import Mathlib.Data.List.Basic

/-!
# `Comsg.Lib.RobustMutex`: robust mutexes with error checks

A mutex of the type `PTHREAD_MUTEX_ERRORCHECK` that is also `PTHREAD_MUTEX_ROBUST`, for threads of
type `τ`.

* `lock` fails with `EDEADLK` for the owner, and is not enabled while somebody else owns the mutex.
* `ownerDied`: the mutex of a thread that exits becomes free, and inconsistent. The next `lock`
  says so with `EOWNERDEAD`.
* `unlock` of an inconsistent mutex, without `pthread_mutex_consistent`, makes it unusable for good:
  `lock` fails with `ENOTRECOVERABLE`.

`Sound` mutexes are neither. They are what a mutex is as long as no owner exits.
-/

set_option autoImplicit false

namespace Comsg.Lib

/-- What the functions for mutexes and condition variables return. -/
inductive MutexError
  | ok
  | edeadlk
  | eperm
  | eownerdead
  | enotrecoverable
  deriving DecidableEq, Repr

structure RobustMutex (τ : Type) where
  owner : Option τ
  inconsistent : Bool
  notRecoverable : Bool
  deriving DecidableEq, Repr

namespace RobustMutex

variable {τ : Type} [DecidableEq τ]

/-- `pthread_mutex_init`. -/
def free : RobustMutex τ := ⟨none, false, false⟩

/-- A mutex that `t` owns. -/
def heldBy (t : τ) : RobustMutex τ := ⟨some t, false, false⟩

/-- `pthread_mutex_lock`. `none` is a thread that waits. -/
def lock (m : RobustMutex τ) (t : τ) : Option (RobustMutex τ × MutexError) :=
  if m.notRecoverable then some (m, .enotrecoverable)
  else match m.owner with
    | none   => some ({ m with owner := some t }, if m.inconsistent then .eownerdead else .ok)
    | some u => if u = t then some (m, .edeadlk) else none

/-- `pthread_mutex_unlock`. It does nothing for another thread than the owner. -/
def unlock (m : RobustMutex τ) (t : τ) : RobustMutex τ :=
  if m.owner = some t then
    { m with owner := none, notRecoverable := m.notRecoverable || m.inconsistent }
  else m

/-- The thread `t` exits. -/
def ownerDied (m : RobustMutex τ) (t : τ) : RobustMutex τ :=
  if m.owner = some t then { m with owner := none, inconsistent := true } else m

/-- No owner has exited. -/
def Sound (m : RobustMutex τ) : Prop := m.inconsistent = false ∧ m.notRecoverable = false

omit [DecidableEq τ] in
theorem Sound.eq {m : RobustMutex τ} (h : m.Sound) : m = free ∨ ∃ t, m = heldBy t := by
  have ⟨hinconsistent, hrecoverable⟩ := h
  cases m with
  | mk owner inconsistent notRecoverable =>
    cases hinconsistent
    cases hrecoverable
    cases owner with
    | none => exact .inl rfl
    | some t => exact .inr ⟨t, rfl⟩

@[simp] theorem lock_free (t : τ) : free.lock t = some (heldBy t, .ok) := rfl

@[simp] theorem lock_own (t : τ) : (heldBy t).lock t = some (heldBy t, .edeadlk) := by
  simp [lock, heldBy]

theorem lock_other {t u : τ} (h : u ≠ t) : (heldBy u).lock t = none := by
  simp [lock, heldBy, h]

@[simp] theorem unlock_own (t : τ) : (heldBy t).unlock t = free := by
  simp [unlock, heldBy, free]

/-- A thread gets a sound mutex, has it already, or waits. -/
theorem Sound.lock_cases {m m' : RobustMutex τ} {t : τ} {e : MutexError} (h : m.Sound)
    (hlock : m.lock t = some (m', e)) :
    m' = heldBy t ∧ (m = free ∧ e = .ok ∨ m = heldBy t ∧ e = .edeadlk) := by
  cases h.eq with
  | inl hfree =>
    subst hfree
    cases hlock
    exact ⟨rfl, .inl ⟨rfl, rfl⟩⟩
  | inr hheld =>
    have ⟨u, hu⟩ := hheld
    subst hu
    by_cases hut : u = t
    · subst hut
      rw [lock_own] at hlock
      cases hlock
      exact ⟨rfl, .inr ⟨rfl, rfl⟩⟩
    · rw [lock_other hut] at hlock
      cases hlock

end RobustMutex

end Comsg.Lib
