import Comsg.Lib.Fuel

/-!
# `Comsg.Lib.FuelSame`: programs that come to the same

`Same x y s P` says that `x` and `y` come to the same in the state `s`, and that `P` holds where they
return. Two programs that are made from different calls come to the same when they make only calls
on which these agree. So a program for which this holds, whatever the calls are elsewhere, does not
make the other calls.
-/

set_option autoImplicit false

namespace Comsg.Lib.Fueled

variable {σ α β : Type}

/-- The programs come to the same, and where they return, it is with `P`. -/
def Same (x y : Fueled σ α) (s : σ) (P : α → σ → Prop) : Prop :=
  x s = y s ∧ ∀ a s', x s = .done a s' → P a s'

namespace Same

variable {x y : Fueled σ α} {f g : α → Fueled σ β} {s : σ} {P Q : α → σ → Prop}
  {R : β → σ → Prop}

theorem ret {a : α} (h : P a s) : Same (pure a) (pure a) s P := by
  refine ⟨rfl, fun b s' hdone => ?_⟩
  cases hdone
  exact h

theorem exit : Same (Fueled.exit : Fueled σ α) Fueled.exit s P := by
  refine ⟨rfl, fun b s' hdone => ?_⟩
  cases hdone

theorem outOfFuel : Same (Fueled.outOfFuel : Fueled σ α) Fueled.outOfFuel s P := by
  refine ⟨rfl, fun b s' hdone => ?_⟩
  cases hdone

theorem mono (h : Same x y s P) (himp : ∀ a s', P a s' → Q a s') : Same x y s Q :=
  ⟨h.1, fun a s' hdone => himp a s' (h.2 a s' hdone)⟩

/-- The rule of composition. -/
theorem bind (h : Same x y s P) (hf : ∀ a s', P a s' → Same (f a) (g a) s' R) :
    Same (x >>= f) (y >>= g) s R := by
  obtain ⟨heq, hP⟩ := h
  cases hx : x s with
  | done a s' =>
    obtain ⟨hrest, hR⟩ := hf a s' (hP a s' hx)
    have hy : y s = .done a s' := heq.symm.trans hx
    refine ⟨by rw [bind_done hx, bind_done hy, hrest], fun b s'' hdone => ?_⟩
    rw [bind_done hx] at hdone
    exact hR b s'' hdone
  | exited =>
    have hy : y s = .exited := heq.symm.trans hx
    refine ⟨by rw [bind_exited hx, bind_exited hy], fun b s'' hdone => ?_⟩
    rw [bind_exited hx] at hdone
    cases hdone
  | stuck =>
    have hy : y s = .stuck := heq.symm.trans hx
    refine ⟨by rw [bind_stuck hx, bind_stuck hy], fun b s'' hdone => ?_⟩
    rw [bind_stuck hx] at hdone
    cases hdone

theorem get_bind {k l : σ → Fueled σ β} (h : Same (k s) (l s) s R) :
    Same (get >>= k) (get >>= l) s R := h

theorem modify {u : σ → σ} {Q : Unit → σ → Prop} (h : Q () (u s)) :
    Same (Fueled.modify u) (Fueled.modify u) s Q := by
  refine ⟨rfl, fun a s' hdone => ?_⟩
  cases hdone
  exact h

theorem modify_bind {u : σ → σ} {k l : Unit → Fueled σ β} (h : Same (k ()) (l ()) (u s) R) :
    Same (Fueled.modify u >>= k) (Fueled.modify u >>= l) s R := h

end Same

end Comsg.Lib.Fueled
