import Mathlib.Data.BitVec

/-!
# `Comsg.Lib.Mask`: event masks as bit vectors

A mask is a bit vector, a flag is one of its bits. `Meets a b` says that two masks have a bit
in common, which C code tests as `(a & b) != 0`. The lemmas reduce the test against a single
flag to the value of that bit, and the test against a part of a mask to its flags.
-/

set_option autoImplicit false

namespace Comsg.Lib

variable {w : Nat}

/-- The two masks have a bit in common: `(a & b) != 0`. -/
def Meets (a b : BitVec w) : Prop := a &&& b ≠ 0

instance (a b : BitVec w) : Decidable (Meets a b) := inferInstanceAs (Decidable (_ ≠ _))

/-- A common bit, by its index. -/
theorem meets_iff (a b : BitVec w) : Meets a b ↔ ∃ i, a.getLsbD i = true ∧ b.getLsbD i = true := by
  unfold Meets
  constructor
  · intro h
    by_contra hno
    refine h (BitVec.eq_of_getLsbD_eq fun i _ => ?_)
    have hi : ¬(a.getLsbD i = true ∧ b.getLsbD i = true) := fun hi => hno ⟨i, hi⟩
    simpa using hi
  · rintro ⟨i, ha, hb⟩ h
    have hbit : (a &&& b).getLsbD i = true := by simp [ha, hb]
    simp [h] at hbit

/-- Testing one flag reads one bit. -/
theorem meets_twoPow (a : BitVec w) (i : Nat) :
    Meets a (BitVec.twoPow w i) ↔ a.getLsbD i = true := by
  unfold Meets
  rw [BitVec.and_twoPow]
  constructor
  · intro h
    by_contra hbit
    exact h (by simp [hbit])
  · intro h
    have hi : i < w := BitVec.lt_of_getLsbD h
    rw [if_pos h]
    intro hz
    have := congrArg (fun x => x.getLsbD i) hz
    simp [hi] at this

theorem Meets.or_left {a c : BitVec w} (b : BitVec w) (h : Meets a c) : Meets (a ||| b) c := by
  obtain ⟨i, ha, hc⟩ := (meets_iff a c).mp h
  exact (meets_iff _ _).mpr ⟨i, by simp [ha], hc⟩

/-- A mask that contains `b` meets what `b` meets. -/
theorem meets_of_and_eq {a b c : BitVec w} (h : a &&& b = b) (hc : Meets b c) : Meets a c := by
  obtain ⟨i, hb, hci⟩ := (meets_iff b c).mp hc
  refine (meets_iff a c).mpr ⟨i, ?_, hci⟩
  have hbit : (a &&& b).getLsbD i = true := by rw [h, hb]
  rw [BitVec.getLsbD_and, Bool.and_eq_true] at hbit
  exact hbit.1

/-- A mask within `b` does not meet what `b` does not meet. -/
theorem not_meets_of_and_not {a b c : BitVec w} (h : a &&& ~~~b = 0) (hc : ¬Meets b c) :
    ¬Meets a c := by
  intro hac
  obtain ⟨i, ha, hci⟩ := (meets_iff a c).mp hac
  refine hc ((meets_iff b c).mpr ⟨i, ?_, hci⟩)
  by_contra hb
  have hlt : i < w := BitVec.lt_of_getLsbD ha
  have hbit : (a &&& ~~~b).getLsbD i = true := by
    rw [BitVec.getLsbD_and, BitVec.getLsbD_not, ha, Bool.eq_false_iff.mpr hb]
    simpa using hlt
  simp [h] at hbit

theorem meets_or_iff {a b c : BitVec w} : Meets (a ||| b) c ↔ Meets a c ∨ Meets b c := by
  simp only [meets_iff, BitVec.getLsbD_or, Bool.or_eq_true]
  constructor
  · rintro ⟨i, ha | hb, hc⟩
    · exact .inl ⟨i, ha, hc⟩
    · exact .inr ⟨i, hb, hc⟩
  · rintro (⟨i, ha, hc⟩ | ⟨i, hb, hc⟩)
    · exact ⟨i, .inl ha, hc⟩
    · exact ⟨i, .inr hb, hc⟩

/-- Clearing bits outside `c` does not matter to it. -/
theorem meets_and_iff {a b c : BitVec w} (h : b &&& c = c) : Meets (a &&& b) c ↔ Meets a c := by
  unfold Meets
  rw [BitVec.and_assoc, h]

/-- Two masks that share a flag meet. -/
theorem Meets.of_flag {a b : BitVec w} {i : Nat} (ha : Meets a (BitVec.twoPow w i))
    (hb : Meets b (BitVec.twoPow w i)) : Meets a b :=
  (meets_iff a b).mpr ⟨i, (meets_twoPow a i).mp ha, (meets_twoPow b i).mp hb⟩

/-- Meeting the part of a mask under two flags. -/
theorem meets_and_flags (a b : BitVec w) (i j : Nat) :
    Meets a (b &&& (BitVec.twoPow w i ||| BitVec.twoPow w j)) ↔
      (Meets a (BitVec.twoPow w i) ∧ Meets b (BitVec.twoPow w i)) ∨
      (Meets a (BitVec.twoPow w j) ∧ Meets b (BitVec.twoPow w j)) := by
  simp only [meets_twoPow]
  rw [meets_iff]
  constructor
  · rintro ⟨k, ha, hk⟩
    simp only [BitVec.getLsbD_and, BitVec.getLsbD_or, BitVec.getLsbD_twoPow, Bool.and_eq_true,
      Bool.or_eq_true, decide_eq_true_eq] at hk
    -- The common bit is one of the two flags.
    obtain ⟨hb, ⟨-, rfl⟩ | ⟨-, rfl⟩⟩ := hk
    · exact .inl ⟨ha, hb⟩
    · exact .inr ⟨ha, hb⟩
  · rintro (⟨ha, hb⟩ | ⟨ha, hb⟩)
    · exact ⟨i, ha, by simp [hb, BitVec.lt_of_getLsbD hb]⟩
    · exact ⟨j, ha, by simp [hb, BitVec.lt_of_getLsbD hb]⟩

end Comsg.Lib
