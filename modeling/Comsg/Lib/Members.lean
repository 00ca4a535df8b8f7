import Mathlib.Data.List.Basic
import Mathlib.Logic.Relation

/-!
# `Comsg.Lib.Members`: records that list members, and links to older records

A table is a list of records, and each record lists members. The lemmas say what the members of
all records together are when one record changes, up to their order.

A record may also link to another one. When every link leads to an older record, following the
links leads to the oldest one (`reflTransGen_zero`).
-/

set_option autoImplicit false

namespace Comsg.Lib

section Members
variable {α β : Type} {f : α → List β} {g : α → α} {xs : List α} {p : Nat} {x : α} {b : β}

/-- A change to record `p` exchanges its members. -/
theorem perm_flatMap_modify (h : xs[p]? = some x) :
    (f x ++ (xs.modify p g).flatMap f).Perm (f (g x) ++ xs.flatMap f) := by
  induction xs generalizing p with
  | nil => simp at h
  | cons y xs ih =>
    cases p with
    | zero =>
      obtain rfl : y = x := by simpa using h
      simp only [List.modify_zero_cons, List.flatMap_cons]
      exact List.perm_append_comm_assoc _ _ _
    | succ p =>
      simp only [List.modify_succ_cons, List.flatMap_cons]
      have hrest := (ih (by simpa using h)).append_left (f y)
      have hswap := List.perm_append_comm_assoc (f x) (f y) ((xs.modify p g).flatMap f)
      exact hswap.trans (hrest.trans (List.perm_append_comm_assoc _ _ _))

/-- Record `p` gains a member. -/
theorem perm_flatMap_modify_cons (h : xs[p]? = some x) (hf : f (g x) = b :: f x) :
    ((xs.modify p g).flatMap f).Perm (b :: xs.flatMap f) := by
  have hperm := perm_flatMap_modify (f := f) (g := g) h
  rw [hf] at hperm
  exact (List.perm_append_left_iff (f x)).mp (hperm.trans List.perm_middle.symm)

/-- Record `p` loses a member. -/
theorem perm_flatMap_modify_erase [DecidableEq β] (h : xs[p]? = some x)
    (hf : f (g x) = (f x).erase b) (hb : b ∈ f x) :
    (xs.flatMap f).Perm (b :: (xs.modify p g).flatMap f) := by
  have hperm := perm_flatMap_modify (f := f) (g := g) h
  rw [hf] at hperm
  have hcons :=
    ((List.perm_cons_erase hb).append_right ((xs.modify p g).flatMap f)).symm.trans hperm
  exact (List.perm_append_left_iff _).mp (hcons.symm.trans List.perm_middle.symm)

/-- A change that leaves the members of every record alone. -/
theorem flatMap_modify_of_eq (hf : ∀ x, f (g x) = f x) :
    (xs.modify p g).flatMap f = xs.flatMap f := by
  induction xs generalizing p with
  | nil => simp
  | cons y xs ih =>
    cases p with
    | zero => simp [hf]
    | succ p => simp [ih]

end Members

/-- Links to smaller numbers lead to zero. -/
theorem reflTransGen_zero {link : Nat → Nat → Prop} {n : Nat}
    (h : ∀ i, 0 < i → i < n → ∃ p, link i p ∧ p < i) {i : Nat} (hi : i < n) :
    Relation.ReflTransGen link i 0 := by
  induction i using Nat.strongRecOn with
  | ind i ih =>
    cases i with
    | zero => exact .refl
    | succ i =>
      obtain ⟨p, hlink, hp⟩ := h (i + 1) (Nat.succ_pos i) hi
      exact .head hlink (ih p hp (by omega))

end Comsg.Lib
