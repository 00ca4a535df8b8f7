import Comsg.Ipcd.Coport

/-!
# `Comsg.Proofs.Ipcd.Coport`: the event bits after each locked section

Which of `COPOLL_IN`, `COPOLL_OUT` and `COPOLL_CLOSED` are set after a send, a receive and a
close. The other proofs of the cocarrier use these lemmas and never look at the mask
arithmetic again.
-/

set_option autoImplicit false

namespace Comsg.Proofs.Ipcd

open Comsg.Lib
open Comsg.Ipcd
open Comsg.Ipcd.Coport (sentEvent takenEvent)

theorem cocarrierSize_eq : cocarrierSize = 256 := rfl

theorem cocarrierSize_pos : 0 < cocarrierSize := by decide

/-! ### An accepted send -/

@[simp] theorem sentEvent_in (ev : CoportEventmask) (n : Nat) :
    Meets (sentEvent ev n) copollIn := by
  rw [meets_in]
  unfold sentEvent
  split <;> simp [copollIn, copollWerr, copollOut]

@[simp] theorem sentEvent_out (ev : CoportEventmask) (n : Nat) :
    Meets (sentEvent ev n) copollOut ↔ n ≠ cocarrierSize ∧ Meets ev copollOut := by
  simp only [meets_out]
  unfold sentEvent
  split <;> rename_i h <;> simp [h, copollIn, copollWerr, copollOut]

@[simp] theorem sentEvent_closed (ev : CoportEventmask) (n : Nat) :
    Meets (sentEvent ev n) copollClosed ↔ Meets ev copollClosed := by
  simp only [meets_closed]
  unfold sentEvent
  split <;> simp [copollIn, copollWerr, copollOut]

/-! ### A successful receive -/

@[simp] theorem takenEvent_in (ev : CoportEventmask) (n : Nat) (closing : Bool) :
    Meets (takenEvent ev n closing) copollIn ↔ n ≠ 0 ∧ Meets ev copollIn := by
  simp only [meets_in]
  unfold takenEvent
  cases closing <;> by_cases h : n = 0 <;> simp [h, copollIn, copollRerr, copollOut]

@[simp] theorem takenEvent_out (ev : CoportEventmask) (n : Nat) (closing : Bool) :
    Meets (takenEvent ev n closing) copollOut ↔ closing = false ∨ Meets ev copollOut := by
  simp only [meets_out]
  unfold takenEvent
  cases closing <;> by_cases h : n = 0 <;> simp [h, copollIn, copollRerr, copollOut]

@[simp] theorem takenEvent_closed (ev : CoportEventmask) (n : Nat) (closing : Bool) :
    Meets (takenEvent ev n closing) copollClosed ↔ Meets ev copollClosed := by
  simp only [meets_closed]
  unfold takenEvent
  cases closing <;> by_cases h : n = 0 <;> simp [h, copollIn, copollRerr, copollOut]

/-! ### A refused send or receive, and a close -/

@[simp] theorem or_werr_in (ev : CoportEventmask) :
    Meets (ev ||| copollWerr) copollIn ↔ Meets ev copollIn := by
  simp [meets_in, copollWerr]

@[simp] theorem or_werr_out (ev : CoportEventmask) :
    Meets (ev ||| copollWerr) copollOut ↔ Meets ev copollOut := by
  simp [meets_out, copollWerr]

@[simp] theorem or_werr_closed (ev : CoportEventmask) :
    Meets (ev ||| copollWerr) copollClosed ↔ Meets ev copollClosed := by
  simp [meets_closed, copollWerr]

@[simp] theorem or_rerr_in (ev : CoportEventmask) :
    Meets (ev ||| copollRerr) copollIn ↔ Meets ev copollIn := by
  simp [meets_in, copollRerr]

@[simp] theorem or_rerr_out (ev : CoportEventmask) :
    Meets (ev ||| copollRerr) copollOut ↔ Meets ev copollOut := by
  simp [meets_out, copollRerr]

@[simp] theorem or_rerr_closed (ev : CoportEventmask) :
    Meets (ev ||| copollRerr) copollClosed ↔ Meets ev copollClosed := by
  simp [meets_closed, copollRerr]

@[simp] theorem markClosed_in (ev : CoportEventmask) :
    Meets ((ev &&& ~~~copollOut) ||| copollClosed) copollIn ↔ Meets ev copollIn := by
  simp [meets_in, copollOut, copollClosed]

@[simp] theorem markClosed_out (ev : CoportEventmask) :
    ¬Meets ((ev &&& ~~~copollOut) ||| copollClosed) copollOut := by
  rw [meets_out]
  simp [copollOut, copollClosed]

@[simp] theorem markClosed_closed (ev : CoportEventmask) :
    Meets ((ev &&& ~~~copollOut) ||| copollClosed) copollClosed := by
  rw [meets_closed]
  simp [copollOut, copollClosed]

end Comsg.Proofs.Ipcd
