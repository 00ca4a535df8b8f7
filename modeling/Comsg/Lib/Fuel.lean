/-!
# `Comsg.Lib.Fuel`: programs that may not return

A program works on a state. It returns, it ends the process, or it is stuck: it has used up the
fuel that bounds its recursion. A recursive program is a function of its fuel, and it terminates
when there is an amount with which it is not stuck.

`Ends x s P` says that `x` is not stuck in `s`, and that `P` holds where it returns. It has the
rules of a total correctness logic, of which `Ends.bind` is the main one. For programs that are
stuck or exit there are `bind_stuck`, `bind_exited` and `bind_done`.
-/

set_option autoImplicit false

namespace Comsg.Lib

/-- How a program goes on. -/
inductive FuelResult (σ α : Type)
  | done (a : α) (s : σ)
  | exited
  | stuck

/-- Programs with a state. -/
def Fueled (σ α : Type) := σ → FuelResult σ α

namespace Fueled
variable {σ α β : Type}

instance : Monad (Fueled σ) where
  pure a := fun s => .done a s
  bind x f := fun s =>
    match x s with
    | .done a s' => f a s'
    | .exited    => .exited
    | .stuck     => .stuck

def get : Fueled σ σ := fun s => .done s s
def modify (f : σ → σ) : Fueled σ Unit := fun s => .done () (f s)

/-- `err`, `abort`. -/
def exit : Fueled σ α := fun _ => .exited

def outOfFuel : Fueled σ α := fun _ => .stuck

variable {x : Fueled σ α} {f : α → Fueled σ β} {s s' : σ} {a : α}

theorem bind_done (h : x s = .done a s') : (x >>= f) s = f a s' := by
  show (match x s with | .done a s' => f a s' | .exited => .exited | .stuck => .stuck) = _
  rw [h]

theorem bind_stuck (h : x s = .stuck) : (x >>= f) s = .stuck := by
  show (match x s with | .done a s' => f a s' | .exited => .exited | .stuck => .stuck) = _
  rw [h]

theorem bind_exited (h : x s = .exited) : (x >>= f) s = .exited := by
  show (match x s with | .done a s' => f a s' | .exited => .exited | .stuck => .stuck) = _
  rw [h]

@[simp] theorem pure_apply : (pure a : Fueled σ α) s = .done a s := rfl

@[simp] theorem get_bind {g : σ → Fueled σ β} : ((get : Fueled σ σ) >>= g) s = g s s := rfl

@[simp] theorem modify_bind {g : σ → σ} {k : Unit → Fueled σ β} :
    (modify g >>= k) s = k () (g s) := rfl

@[simp] theorem exit_apply : (exit : Fueled σ α) s = .exited := rfl

/-! ### Total correctness -/

/-- The program returns with `P`, or ends the process. -/
def Ends (x : Fueled σ α) (s : σ) (P : α → σ → Prop) : Prop :=
  match x s with
  | .done a s' => P a s'
  | .exited    => True
  | .stuck     => False

namespace Ends
variable {P Q : α → σ → Prop} {R : β → σ → Prop}

theorem of_done (h : x s = .done a s') (hP : P a s') : Ends x s P := by
  unfold Ends
  rw [h]
  exact hP

theorem ret (h : P a s) : Ends (pure a) s P := h

theorem of_exited (h : x s = .exited) : Ends x s P := by
  unfold Ends
  rw [h]
  trivial

theorem ne_stuck (h : Ends x s P) : x s ≠ .stuck := by
  intro heq
  unfold Ends at h
  rw [heq] at h
  exact h

theorem mono (h : Ends x s P) (himp : ∀ a s', P a s' → Q a s') : Ends x s Q := by
  unfold Ends at h ⊢
  split at h
  · exact himp _ _ h
  · trivial
  · cases h

/-- The rule of composition. -/
theorem bind (h : Ends x s P) (hf : ∀ a s', P a s' → Ends (f a) s' R) : Ends (x >>= f) s R := by
  unfold Ends at h
  split at h
  · rename_i a s' heq
    have hrest := hf a s' h
    unfold Ends at hrest ⊢
    rw [bind_done heq]
    exact hrest
  · rename_i heq
    exact of_exited (bind_exited heq)
  · cases h

theorem get_bind {g : σ → Fueled σ β} (h : Ends (g s) s R) : Ends (get >>= g) s R := h

theorem modify_bind {g : σ → σ} {k : Unit → Fueled σ β} (h : Ends (k ()) (g s) R) :
    Ends (modify g >>= k) s R := h

end Ends

end Fueled

end Comsg.Lib
